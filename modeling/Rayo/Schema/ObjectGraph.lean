import Rayo.Graph
import Rayo.Schema.RoundTrip

/-!
# `write_json` on object graphs

Objects live on a heap, where a container refers to its entries and may be reached from itself.
The walk gets a number of nested calls that it may make, and runs out of them if this is not
enough. On an object that unfolds to a tree it is the writer of trees.
-/

namespace Rayo

variable {F : Type}

/-- An object on a heap with addresses from `A`. -/
inductive Cell (F A : Type)
  | none
  | bool (b : Bool)
  | int (i : ℤ)
  | float (x : F)
  | str (text : PyStr)
  | dict (entries : List (PyKey × A))
  | list (items : List A)
  | tuple (items : List A)
  | other (typeName : String)

/-- The objects of a process. -/
structure Heap (F : Type) where
  size : ℕ
  cell : Fin size → Cell F (Fin size)

/-- What appends to a buffer and may fail, unless it runs out of nested calls. -/
abbrev Walk := Buffer → Option (Buffer × Option PyErr)

namespace Walk

/-- Without nested calls. -/
def ofWriter (w : Writer) : Walk := fun out => some (w out)

/-- `w?; w'`. -/
def andThen (w w' : Walk) : Walk := fun out =>
  match w out with
  | Option.none => Option.none
  | some (out, Option.none) => w' out
  | some failed => some failed

end Walk

open Walk

variable {A : Type} (ops : FloatOps F) (cell : A → Cell F A)

/-- The loop over the entries of a dict, with `visit` for the recursive call. -/
def walkEntries (visit : A → Walk) (firstEntry : Bool) : List (PyKey × A) → Walk
  | [] => ofWriter (push [])
  | (entryKey, entryValue) :: rest =>
    (ofWriter (push (if firstEntry then [] else [',']))).andThen <|
      match entryKey with
      | .other typeName =>
        ofWriter (fail (.typeError ("JSON object keys must be str, found " ++ typeName)))
      | .str keyText =>
        match toStr keyText with
        | none => ofWriter (fail .unicodeEncodeError)
        | some keyText =>
          (ofWriter (writeJsonString keyText)).andThen <| (ofWriter (push [':'])).andThen <|
            (visit entryValue).andThen (walkEntries visit false rest)

/-- The loop of `write_json_sequence`. -/
def walkItems (visit : A → Walk) (index : ℕ) : List A → Walk
  | [] => ofWriter (push [])
  | item :: rest =>
    (ofWriter (push (if 0 < index then [','] else []))).andThen <|
      (visit item).andThen (walkItems visit (index + 1) rest)

/-- `write_json`, with at most `n` nested calls. -/
def writeAt : ℕ → A → Walk
  | 0, _ => fun _ => none
  | n + 1, a =>
    match cell a with
    | .none => ofWriter (push ['n', 'u', 'l', 'l'])
    | .bool boolean =>
      ofWriter (push (if boolean then ['t', 'r', 'u', 'e'] else ['f', 'a', 'l', 's', 'e']))
    | .int i =>
      ofWriter <|
        match extractI64 i with
        | some integer => push (toString integer).toList
        | none => fail (.valueError
            "Rayo cannot serialize integers outside the 64-bit range to JSON yet")
    | .float number =>
      ofWriter <|
        if !ops.isFinite number then
          fail (.valueError
            "JSON cannot represent NaN or infinity; return None or a string instead")
        else push (ops.display number)
    | .str text =>
      ofWriter <|
        match toStr text with
        | some text => writeJsonString text
        | none => fail .unicodeEncodeError
    | .dict mapping =>
      (ofWriter (push ['{'])).andThen <|
        (walkEntries (writeAt n) true mapping).andThen (ofWriter (push ['}']))
    | .list items =>
      (ofWriter (push ['['])).andThen <|
        (walkItems (writeAt n) 0 items).andThen (ofWriter (push [']']))
    | .tuple items =>
      (ofWriter (push ['['])).andThen <|
        (walkItems (writeAt n) 0 items).andThen (ofWriter (push [']']))
    | .other typeName => ofWriter (fail (unsupported typeName))

/-- Two writers one after the other are two walks one after the other. -/
theorem andThen_ofWriter (w w' : Writer) :
    (ofWriter w).andThen (ofWriter w') = ofWriter (Rayo.andThen w w') := by
  funext out
  unfold Walk.andThen ofWriter Rayo.andThen
  rcases w out with ⟨written, _ | e⟩ <;> rfl

/-- The tree that an object unfolds to, at most `n` objects deep. -/
def treeAt : ℕ → A → Option (PyValue F)
  | 0, _ => none
  | n + 1, a =>
    match cell a with
    | .none => some .none
    | .bool b => some (.bool b)
    | .int i => some (.int i)
    | .float x => some (.float x)
    | .str text => some (.str text)
    | .dict entries =>
      (entries.mapM fun entry => (treeAt n entry.2).map (entry.1, ·)).map .dict
    | .list items => (items.mapM (treeAt n)).map .list
    | .tuple items => (items.mapM (treeAt n)).map .tuple
    | .other typeName => some (.other typeName)

/-- The walk over a sequence writes its items. -/
theorem walkItems_eq_writeItems {visit : A → Walk} {tree : A → Option (PyValue F)}
    (hvisit : ∀ a v, tree a = some v → visit a = ofWriter (writeJson ops v)) {items : List A}
    {vs : List (PyValue F)} (h : items.mapM tree = some vs) (index : ℕ) :
    walkItems visit index items = ofWriter (writeItems ops index vs) := by
  induction items generalizing vs index with
  | nil =>
    obtain rfl : [] = vs := by simpa using h
    rfl
  | cons item rest ih =>
    rw [List.mapM_cons] at h
    obtain ⟨v, hv, hrest⟩ := Option.bind_eq_some_iff.mp h
    obtain ⟨vs', hvs', hcons⟩ := Option.bind_eq_some_iff.mp hrest
    obtain rfl : v :: vs' = vs := Option.some.inj hcons
    rw [walkItems, hvisit item v hv, ih hvs', andThen_ofWriter, andThen_ofWriter]
    rfl

/-- The walk over a dictionary writes its entries. -/
theorem walkEntries_eq_writeEntries {visit : A → Walk} {tree : A → Option (PyValue F)}
    (hvisit : ∀ a v, tree a = some v → visit a = ofWriter (writeJson ops v))
    {entries : List (PyKey × A)} {vs : List (PyKey × PyValue F)}
    (h : (entries.mapM fun entry => (tree entry.2).map (entry.1, ·)) = some vs) (first : Bool) :
    walkEntries visit first entries = ofWriter (writeEntries ops first vs) := by
  induction entries generalizing vs first with
  | nil =>
    obtain rfl : [] = vs := by simpa using h
    rfl
  | cons entry rest ih =>
    rw [List.mapM_cons] at h
    obtain ⟨pair, hpair, hrest⟩ := Option.bind_eq_some_iff.mp h
    obtain ⟨vs', hvs', hcons⟩ := Option.bind_eq_some_iff.mp hrest
    obtain rfl : pair :: vs' = vs := Option.some.inj hcons
    obtain ⟨v, hv, rfl⟩ := Option.map_eq_some_iff.mp hpair
    obtain ⟨key, b⟩ := entry
    simp only [walkEntries, writeEntries, hvisit b v hv, ih hvs']
    cases key with
    | other typeName => exact andThen_ofWriter _ _
    | str text =>
      cases hname : toStr text with
      | none =>
        simp only [hname]
        exact andThen_ofWriter _ _
      | some name =>
        simp only [hname]
        rw [andThen_ofWriter, andThen_ofWriter, andThen_ofWriter, andThen_ofWriter]

/-- **An object that unfolds to a tree is written like the tree.** -/
theorem writeAt_eq_writeJson {n : ℕ} {a : A} {v : PyValue F} (h : treeAt cell n a = some v) :
    writeAt ops cell n a = ofWriter (writeJson ops v) := by
  induction n generalizing a v with
  | zero => exact nomatch h
  | succ n ih =>
    have hvisit (b : A) (v : PyValue F) (hv : treeAt cell n b = some v) :
        writeAt ops cell n b = ofWriter (writeJson ops v) := ih hv
    rw [treeAt] at h
    rw [writeAt]
    cases hcell : cell a with
    | dict entries =>
      rw [hcell] at h
      obtain ⟨vs, hvs, rfl⟩ := Option.map_eq_some_iff.mp h
      simp only [walkEntries_eq_writeEntries ops hvisit hvs true, andThen_ofWriter]
      rfl
    | list items =>
      rw [hcell] at h
      obtain ⟨vs, hvs, rfl⟩ := Option.map_eq_some_iff.mp h
      simp only [walkItems_eq_writeItems ops hvisit hvs 0, andThen_ofWriter]
      rfl
    | tuple items =>
      rw [hcell] at h
      obtain ⟨vs, hvs, rfl⟩ := Option.map_eq_some_iff.mp h
      simp only [walkItems_eq_writeItems ops hvisit hvs 0, andThen_ofWriter]
      rfl
    | _ =>
      rw [hcell] at h
      obtain rfl := Option.some.inj h
      rfl

end Rayo
