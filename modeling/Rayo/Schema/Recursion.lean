import Rayo.Schema.ObjectGraph

/-!
# When `write_json` comes to an end

The walk looks at the entries of a container in order and stops at the first one that cannot be
written. It goes on forever exactly if it comes to a container that it is already inside of.
-/

namespace Rayo

open Walk Relation

variable {F A : Type} (ops : FloatOps F) (cell : A → Cell F A)

/-- The entries of a container, with their keys in a dict. -/
def Cell.children : Cell F A → List (Option PyKey × A)
  | .dict entries => entries.map fun entry => (some entry.1, entry.2)
  | .list items => items.map fun item => (Option.none, item)
  | .tuple items => items.map fun item => (Option.none, item)
  | _ => []

/-- What is written in front of the value of an entry. -/
def writeKey : Option PyKey → Writer
  | none => push []
  | some (.other typeName) => fail (.typeError ("JSON object keys must be str, found " ++ typeName))
  | some (.str keyText) =>
    match toStr keyText with
    | none => fail .unicodeEncodeError
    | some keyText => andThen (writeJsonString keyText) (push [':'])

/-- The loop of either kind of container. -/
def walkChildren (visit : A → Walk) (first : Bool) : List (Option PyKey × A) → Walk
  | [] => ofWriter (push [])
  | (key, b) :: rest =>
    (ofWriter (andThen (push (if first then [] else [','])) (writeKey key))).andThen <|
      (visit b).andThen (walkChildren visit false rest)

/-- What is written before the entries. -/
def opening : Cell F A → Writer
  | .dict _ => push ['{']
  | .list _ => push ['[']
  | .tuple _ => push ['[']
  | .none => writeJson ops .none
  | .bool b => writeJson ops (.bool b)
  | .int i => writeJson ops (.int i)
  | .float x => writeJson ops (.float x)
  | .str text => writeJson ops (.str text)
  | .other typeName => writeJson ops (.other typeName)

/-- What is written after them. -/
def closing : Cell F A → Writer
  | .dict _ => push ['}']
  | .list _ => push [']']
  | .tuple _ => push [']']
  | _ => push []

/-- Three walks one after the other can be put together either way. -/
theorem andThen_assoc (w w' w'' : Walk) :
    (w.andThen w').andThen w'' = w.andThen (w'.andThen w'') := by
  funext out
  simp only [Walk.andThen]
  rcases w out with _ | ⟨written, _ | e⟩ <;> rfl

/-- Nothing that is pushed before a walk makes no difference. -/
theorem andThen_ofWriter_push_nil (w : Walk) : w.andThen (ofWriter (push [])) = w := by
  funext out
  simp only [Walk.andThen]
  rcases w out with _ | ⟨written, _ | e⟩
  · rfl
  · simp [ofWriter, push]
  · rfl

/-- The walk over a sequence is one over children without keys. -/
theorem walkItems_eq_walkChildren (visit : A → Walk) (items : List A) (index : ℕ) :
    walkItems visit index items =
      walkChildren visit (decide (index = 0)) (items.map fun item => (none, item)) := by
  induction items generalizing index with
  | nil => rfl
  | cons item rest ih =>
    have hcomma : (if 0 < index then [','] else []) =
        if decide (index = 0) then ([] : List Char) else [','] := by
      rcases Nat.eq_zero_or_pos index with h | h
      · simp [h]
      · have hne : index ≠ 0 := by omega
        simp [h, hne]
    simp only [walkItems, ih, List.map_cons, walkChildren, writeKey, hcomma, ← andThen_ofWriter,
      andThen_ofWriter_push_nil, Nat.add_one_ne_zero, decide_false]

/-- The walk over a dictionary is one over children with keys. -/
theorem walkEntries_eq_walkChildren (visit : A → Walk) (entries : List (PyKey × A))
    (first : Bool) : walkEntries visit first entries =
      walkChildren visit first (entries.map fun entry => (some entry.1, entry.2)) := by
  induction entries generalizing first with
  | nil => rfl
  | cons entry rest ih =>
    obtain ⟨key, b⟩ := entry
    simp only [walkEntries, ih, List.map_cons, walkChildren, ← andThen_ofWriter, andThen_assoc]
    -- A key that is refused ends the walk before the value.
    have hfails (e : PyErr) (w : Walk) : (ofWriter (fail e)).andThen w = ofWriter (fail e) := rfl
    cases key with
    | other typeName => simp only [writeKey, hfails]
    | str text =>
      cases hname : toStr text with
      | none => simp only [writeKey, hname, hfails]
      | some name => simp only [writeKey, hname, ← andThen_ofWriter, andThen_assoc]

/-- One nested call. -/
theorem writeAt_succ (n : ℕ) (a : A) : writeAt ops cell (n + 1) a =
    (ofWriter (opening ops (cell a))).andThen
      ((walkChildren (writeAt ops cell n) true (cell a).children).andThen
        (ofWriter (closing (cell a)))) := by
  rw [writeAt]
  cases cell a with
  | dict entries => simp only [walkEntries_eq_walkChildren]; rfl
  | list items => simp only [walkItems_eq_walkChildren]; rfl
  | tuple items => simp only [walkItems_eq_walkChildren]; rfl
  | _ =>
    simp only [Cell.children, walkChildren, closing, andThen_ofWriter_push_nil]
    rfl

/-- The second walk goes at least as far. -/
def Walk.Extends (w w' : Walk) : Prop := ∀ out result, w out = some result → w' out = some result

/-- Two walks that go further do so one after the other. -/
theorem Walk.Extends.andThen {w w' v v' : Walk} (h : w.Extends w') (h' : v.Extends v') :
    (w.andThen v).Extends (w'.andThen v') := by
  intro out result hresult
  unfold Walk.andThen at hresult ⊢
  cases hw : w out with
  | none => rw [hw] at hresult; exact nomatch hresult
  | some first =>
    rw [hw] at hresult
    rw [h out first hw]
    obtain ⟨written, _ | e⟩ := first
    · exact h' _ _ hresult
    · exact hresult

/-- A walk over children goes further if the visits do. -/
theorem walkChildren_extends {visit visit' : A → Walk} (h : ∀ b, (visit b).Extends (visit' b))
    (children : List (Option PyKey × A)) (first : Bool) :
    (walkChildren visit first children).Extends (walkChildren visit' first children) := by
  induction children generalizing first with
  | nil => exact fun _ _ => id
  | cons child rest ih =>
    have hsame (w : Walk) : w.Extends w := fun _ _ => id
    exact (hsame _).andThen ((h child.2).andThen (ih false))

/-- One more nested call goes at least as far. -/
theorem writeAt_extends (n : ℕ) (a : A) :
    (writeAt ops cell n a).Extends (writeAt ops cell (n + 1) a) := by
  induction n generalizing a with
  | zero => exact fun _ _ h => nomatch h
  | succ n ih =>
    have hsame (w : Walk) : w.Extends w := fun _ _ => id
    rw [writeAt_succ, writeAt_succ]
    exact (hsame _).andThen ((walkChildren_extends ih _ true).andThen (hsame _))

/-- More nested calls go at least as far. -/
theorem writeAt_extends_le {n m : ℕ} (h : n ≤ m) (a : A) :
    (writeAt ops cell n a).Extends (writeAt ops cell m a) := by
  induction h with
  | refl => exact fun _ _ => id
  | step _ ih => exact fun out result hn => writeAt_extends ops cell _ a _ _ (ih out result hn)

/-- A key that is written. -/
def KeyAccepted : Option PyKey → Prop
  | none => True
  | some (.other _) => False
  | some (.str text) => ∀ p ∈ text, p.val.isValidChar

/-- An object that is written, but for its entries. -/
def Cell.Accepted : Cell F A → Prop
  | .int i => -2 ^ 63 ≤ i ∧ i < 2 ^ 63
  | .float x => ops.isFinite x = true
  | .str text => ∀ p ∈ text, p.val.isValidChar
  | .other _ => False
  | _ => True

/-- Everything that is reached from the object can be written. -/
inductive Writable : A → Prop
  | intro {a : A} : (cell a).Accepted ops → (∀ child ∈ (cell a).children, KeyAccepted child.1) →
    (∀ child ∈ (cell a).children, Writable child.2) → Writable a

/-- The entry `b` of the container `a` comes after entries that can be written. -/
def Descends (a b : A) : Prop :=
  ∃ before key after, (cell a).children = before ++ (key, b) :: after ∧
    (cell a).Accepted ops ∧ KeyAccepted key ∧
    ∀ child ∈ before, KeyAccepted child.1 ∧ Writable ops cell child.2

/-- The writer appends some text if the condition holds, and fails otherwise. -/
def WritesIf (w : Writer) (p : Prop) : Prop :=
  (p ∧ ∃ text, Writes w (some text)) ∨ (¬ p ∧ Writes w none)

/-- What is pushed is written. -/
theorem writesIf_push (text : List Char) {p : Prop} (hp : p) : WritesIf (push text) p :=
  .inl ⟨hp, text, writes_push text⟩

/-- A writer that fails writes nothing. -/
theorem writesIf_fail (e : PyErr) {p : Prop} (hp : ¬ p) : WritesIf (fail e) p :=
  .inr ⟨hp, writes_fail e⟩

/-- A key is written exactly if it is accepted. -/
theorem writesIf_writeKey (key : Option PyKey) : WritesIf (writeKey key) (KeyAccepted key) := by
  match key with
  | none => exact writesIf_push [] trivial
  | some (.other typeName) => exact writesIf_fail _ id
  | some (.str text) =>
    have hvalid := toStr_isSome text
    cases hname : toStr text with
    | none =>
      rw [hname] at hvalid
      simp only [writeKey, hname]
      exact writesIf_fail _ fun h => by simpa using hvalid.mpr h
    | some name =>
      rw [hname] at hvalid
      simp only [writeKey, hname]
      exact .inl ⟨hvalid.mp rfl, _, (writes_writeJsonString name).andThen (writes_push _)⟩

/-- The beginning of an object is written exactly if the object is accepted. -/
theorem writesIf_opening (c : Cell F A) : WritesIf (opening ops c) (c.Accepted ops) := by
  cases c with
  | int i =>
    by_cases hi : -2 ^ 63 ≤ i ∧ i < 2 ^ 63
    · have hextract : extractI64 i = some i := if_pos hi
      simp only [opening, writeJson, hextract]
      exact writesIf_push _ hi
    · have hextract : extractI64 i = none := if_neg hi
      simp only [opening, writeJson, hextract]
      exact writesIf_fail _ hi
  | float x =>
    cases hx : ops.isFinite x with
    | true =>
      simp only [opening, writeJson, hx]
      exact writesIf_push _ hx
    | false =>
      have hnot : ¬ ops.isFinite x = true := by simp [hx]
      simp only [opening, writeJson, hx]
      exact writesIf_fail _ hnot
  | str text =>
    have hvalid := toStr_isSome text
    cases hname : toStr text with
    | none =>
      rw [hname] at hvalid
      simp only [opening, writeJson, hname]
      exact writesIf_fail _ fun h => by simpa using hvalid.mpr h
    | some name =>
      rw [hname] at hvalid
      simp only [opening, writeJson, hname]
      exact .inl ⟨hvalid.mp rfl, _, writes_writeJsonString name⟩
  | other typeName => exact writesIf_fail _ id
  | _ => exact writesIf_push _ trivial

/-- A walk goes on after the text that a writer has appended. -/
theorem andThen_of_writes {w : Writer} {text : List Char} (h : Writes w (some text)) (w' : Walk)
    (out : Buffer) : (ofWriter w).andThen w' out = w' (out ++ Utf8.encode text) := by
  have hw : w out = (out ++ Utf8.encode text, none) := h out
  simp [Walk.andThen, ofWriter, hw]

/-- A walk ends where a writer fails. -/
theorem andThen_of_fails {w : Writer} (h : Writes w none) (w' : Walk) (out : Buffer) :
    ∃ written e, (ofWriter w).andThen w' out = some (written, some e) := by
  obtain ⟨written, e, hw⟩ := h out
  exact ⟨out ++ written, e, by simp [Walk.andThen, ofWriter, hw]⟩

/-- Two walks that succeed one after the other do so each. -/
theorem andThen_eq_ok {w w' : Walk} {out written : Buffer}
    (h : w.andThen w' out = some (written, none)) :
    ∃ middle, w out = some (middle, none) ∧ w' middle = some (written, none) := by
  unfold Walk.andThen at h
  cases hw : w out with
  | none => rw [hw] at h; exact nomatch h
  | some first =>
    rw [hw] at h
    obtain ⟨middle, _ | e⟩ := first
    · exact ⟨middle, rfl, h⟩
    · exact nomatch h

/-- The first walk returns if both do. -/
theorem returns_left {w w' : Walk} {out : Buffer} {result : Buffer × Option PyErr}
    (h : w.andThen w' out = some result) : ∃ first, w out = some first := by
  unfold Walk.andThen at h
  cases hw : w out with
  | none => rw [hw] at h; exact nomatch h
  | some first => exact ⟨first, rfl⟩

/-- Both walks return if the second one does after a success of the first. -/
theorem returns_andThen {w w' : Walk} {out : Buffer} {first : Buffer × Option PyErr}
    (h : w out = some first) (h' : first.2 = none → ∃ result, w' first.1 = some result) :
    ∃ result, w.andThen w' out = some result := by
  unfold Walk.andThen
  rw [h]
  obtain ⟨middle, _ | e⟩ := first
  · exact h' rfl
  · exact ⟨_, rfl⟩

/-- The key of an entry is written after the comma if it is accepted. -/
theorem writesIf_comma (first : Bool) (key : Option PyKey) :
    WritesIf (andThen (push (if first then [] else [','])) (writeKey key)) (KeyAccepted key) := by
  rcases writesIf_writeKey key with ⟨hkey, text, hwrites⟩ | ⟨hkey, hfails⟩
  · exact .inl ⟨hkey, _, (writes_push _).andThen hwrites⟩
  · exact .inr ⟨hkey, (writes_push _).andThen_fails hfails⟩

variable {ops cell} {visit : A → Walk}

/-- A loop that succeeds has accepted all keys and written all values. -/
theorem walkChildren_ok {children : List (Option PyKey × A)} {first : Bool} {out written : Buffer}
    (h : walkChildren visit first children out = some (written, none)) :
    ∀ child ∈ children, KeyAccepted child.1 ∧
      ∃ out written, visit child.2 out = some (written, none) := by
  induction children generalizing first out with
  | nil => simp
  | cons child rest ih =>
    obtain ⟨key, b⟩ := child
    rw [walkChildren] at h
    rcases writesIf_comma first key with ⟨hkey, text, hwrites⟩ | ⟨-, hfails⟩
    · rw [andThen_of_writes hwrites] at h
      obtain ⟨middle, hvisit, hrest⟩ := andThen_eq_ok h
      rw [List.forall_mem_cons]
      exact ⟨⟨hkey, _, _, hvisit⟩, ih hrest⟩
    · obtain ⟨written', e, hfailed⟩ :=
        andThen_of_fails hfails ((visit b).andThen (walkChildren visit false rest)) out
      rw [hfailed] at h
      exact nomatch h

/-- The loop succeeds if every entry does. -/
theorem walkChildren_succeeds {children : List (Option PyKey × A)}
    (h : ∀ child ∈ children, KeyAccepted child.1 ∧
      ∀ out, ∃ written, visit child.2 out = some (written, none)) (first : Bool) (out : Buffer) :
    ∃ written, walkChildren visit first children out = some (written, none) := by
  induction children generalizing first out with
  | nil => exact ⟨_, rfl⟩
  | cons child rest ih =>
    obtain ⟨key, b⟩ := child
    rw [List.forall_mem_cons] at h
    obtain ⟨⟨hkey, hvisit⟩, hrest⟩ := h
    rcases writesIf_comma first key with ⟨-, text, hwrites⟩ | ⟨hkey', -⟩
    · obtain ⟨middle, hmiddle⟩ := hvisit (out ++ Utf8.encode text)
      obtain ⟨written, hwritten⟩ := ih hrest false middle
      refine ⟨written, ?_⟩
      rw [walkChildren, andThen_of_writes hwrites]
      simp [Walk.andThen, hmiddle, hwritten]
    · exact absurd hkey hkey'

/-- What is written without an error is writable. -/
theorem writable_of_ok {n : ℕ} {a : A} {out written : Buffer}
    (h : writeAt ops cell n a out = some (written, none)) : Writable ops cell a := by
  induction n generalizing a out written with
  | zero => exact nomatch h
  | succ n ih =>
    rw [writeAt_succ] at h
    rcases writesIf_opening ops (cell a) with ⟨haccepted, text, hwrites⟩ | ⟨-, hfails⟩
    · rw [andThen_of_writes hwrites] at h
      obtain ⟨middle, hchildren, -⟩ := andThen_eq_ok h
      have hall := walkChildren_ok hchildren
      refine .intro haccepted (fun child hchild => (hall child hchild).1) fun child hchild => ?_
      obtain ⟨-, out', written', hvisit⟩ := hall child hchild
      exact ih hvisit
    · obtain ⟨written', e, hfailed⟩ := andThen_of_fails hfails
        ((walkChildren (writeAt ops cell n) true (cell a).children).andThen
          (ofWriter (closing (cell a)))) out
      rw [hfailed] at h
      exact nomatch h

/-- One number of nested calls that is enough for all. -/
theorem exists_common {β : Type} {p : ℕ → β → Prop} (hmono : ∀ n m b, n ≤ m → p n b → p m b)
    {children : List β} (h : ∀ b ∈ children, ∃ n, p n b) : ∃ n, ∀ b ∈ children, p n b := by
  induction children with
  | nil => exact ⟨0, by simp⟩
  | cons b rest ih =>
    rw [List.forall_mem_cons] at h
    obtain ⟨⟨n, hb⟩, hrest⟩ := h
    obtain ⟨m, hm⟩ := ih hrest
    refine ⟨max n m, List.forall_mem_cons.mpr ⟨hmono n _ b (by omega) hb, fun b' hb' => ?_⟩⟩
    exact hmono m _ b' (by omega) (hm b' hb')

/-- What is writable is written without an error. -/
theorem writeAt_of_writable {a : A} (h : Writable ops cell a) :
    ∃ n, ∀ out, ∃ written, writeAt ops cell n a out = some (written, none) := by
  induction h with
  | @intro a haccepted hkeys _ ih =>
    have hmono (n m : ℕ) (child : Option PyKey × A) (hle : n ≤ m)
        (hn : ∀ out, ∃ written, writeAt ops cell n child.2 out = some (written, none))
        (out : Buffer) : ∃ written, writeAt ops cell m child.2 out = some (written, none) := by
      obtain ⟨written, hwritten⟩ := hn out
      exact ⟨written, writeAt_extends_le ops cell hle _ _ _ hwritten⟩
    obtain ⟨n, hn⟩ := exists_common hmono ih
    refine ⟨n + 1, fun out => ?_⟩
    rw [writeAt_succ]
    rcases writesIf_opening ops (cell a) with ⟨-, text, hwrites⟩ | ⟨hnot, -⟩
    · have hchildren := walkChildren_succeeds (fun child hchild => ⟨hkeys child hchild,
        hn child hchild⟩) true (out ++ Utf8.encode text)
      obtain ⟨middle, hmiddle⟩ := hchildren
      have hclosing : ∃ text, Writes (closing (cell a)) (some text) := by
        cases cell a <;> exact ⟨_, writes_push _⟩
      obtain ⟨text', hwrites'⟩ := hclosing
      refine ⟨middle ++ Utf8.encode text', ?_⟩
      have hclosed : closing (cell a) middle = (middle ++ Utf8.encode text', none) :=
        hwrites' middle
      rw [andThen_of_writes hwrites]
      simp [Walk.andThen, hmiddle, ofWriter, hclosed]
    · exact absurd haccepted hnot

/-- Whatever number of calls suffices, a writable object is written without an error. -/
theorem ok_of_writable {a : A} (h : Writable ops cell a) {n : ℕ} {out : Buffer}
    {result : Buffer × Option PyErr} (hn : writeAt ops cell n a out = some result) :
    result.2 = none := by
  obtain ⟨m, hm⟩ := writeAt_of_writable h
  obtain ⟨written, hwritten⟩ := hm out
  have hleft := writeAt_extends_le ops cell (Nat.le_max_left n m) a _ _ hn
  have hright := writeAt_extends_le ops cell (Nat.le_max_right n m) a _ _ hwritten
  rw [hleft] at hright
  rw [Option.some.inj hright]

/-- A loop that returns has called for the entry after those that can be written. -/
theorem visit_returns {before after : List (Option PyKey × A)} {key : Option PyKey} {b : A}
    {first : Bool} {out : Buffer} {result : Buffer × Option PyErr} (hkey : KeyAccepted key)
    (hbefore : ∀ child ∈ before, KeyAccepted child.1 ∧
      ∀ out result, visit child.2 out = some result → result.2 = none)
    (h : walkChildren visit first (before ++ (key, b) :: after) out = some result) :
    ∃ out result, visit b out = some result := by
  induction before generalizing first out with
  | nil =>
    rw [List.nil_append, walkChildren] at h
    rcases writesIf_comma first key with ⟨-, text, hwrites⟩ | ⟨hkey', -⟩
    · rw [andThen_of_writes hwrites] at h
      obtain ⟨result', hresult'⟩ := returns_left h
      exact ⟨_, result', hresult'⟩
    · exact absurd hkey hkey'
  | cons child before ih =>
    obtain ⟨key', c⟩ := child
    rw [List.forall_mem_cons] at hbefore
    obtain ⟨⟨hkey', hvisit⟩, hbefore⟩ := hbefore
    rw [List.cons_append, walkChildren] at h
    rcases writesIf_comma first key' with ⟨-, text, hwrites⟩ | ⟨hnot, -⟩
    · rw [andThen_of_writes hwrites] at h
      obtain ⟨⟨middle, e⟩, hmiddle⟩ := returns_left h
      obtain rfl : e = none := hvisit _ _ hmiddle
      simp only [Walk.andThen, hmiddle] at h
      exact ih hbefore h
    · exact absurd hkey' hnot

/-- The loop returns if every call that it comes to does. -/
theorem walkChildren_returns {p : A → Prop} {children : List (Option PyKey × A)}
    (hok : ∀ b out written, visit b out = some (written, none) → p b)
    (h : ∀ before key b after, children = before ++ (key, b) :: after → KeyAccepted key →
      (∀ child ∈ before, KeyAccepted child.1 ∧ p child.2) →
      ∀ out, ∃ result, visit b out = some result) (first : Bool) (out : Buffer) :
    ∃ result, walkChildren visit first children out = some result := by
  induction children generalizing first out with
  | nil => exact ⟨_, rfl⟩
  | cons child rest ih =>
    obtain ⟨key, b⟩ := child
    rw [walkChildren]
    rcases writesIf_comma first key with ⟨hkey, text, hwrites⟩ | ⟨-, hfails⟩
    · rw [andThen_of_writes hwrites]
      obtain ⟨middle, hmiddle⟩ := h [] key b rest rfl hkey (by simp) (out ++ Utf8.encode text)
      refine returns_andThen hmiddle fun hnone => ih ?_ false _
      intro before key' b' after hsplit hkey' hbefore
      have hb : p b := hok b (out ++ Utf8.encode text) middle.1 (by rw [hmiddle, ← hnone])
      apply h ((key, b) :: before) key' b' after (by rw [hsplit, List.cons_append]) hkey'
      exact List.forall_mem_cons.mpr ⟨⟨hkey, hb⟩, hbefore⟩
    · obtain ⟨written, e, hfailed⟩ :=
        andThen_of_fails hfails ((visit b).andThen (walkChildren visit false rest)) out
      exact ⟨_, hfailed⟩

/-- Going down to an entry leaves fewer nested calls. -/
theorem returns_of_descends {n : ℕ} {a b : A}
    (h : ∃ out result, writeAt ops cell n a out = some result)
    (hdescends : Descends ops cell a b) :
    ∃ m < n, ∃ out result, writeAt ops cell m b out = some result := by
  obtain ⟨out, result, hresult⟩ := h
  obtain ⟨before, key, after, hchildren, haccepted, hkey, hbefore⟩ := hdescends
  cases n with
  | zero => exact nomatch hresult
  | succ n =>
    rw [writeAt_succ] at hresult
    rcases writesIf_opening ops (cell a) with ⟨-, text, hwrites⟩ | ⟨hnot, -⟩
    · rw [andThen_of_writes hwrites] at hresult
      obtain ⟨loop, hloop⟩ := returns_left hresult
      rw [hchildren] at hloop
      refine ⟨n, by omega, visit_returns hkey (fun child hchild => ?_) hloop⟩
      obtain ⟨hkey', hwritable⟩ := hbefore child hchild
      exact ⟨hkey', fun out result h => ok_of_writable hwritable h⟩
    · exact absurd haccepted hnot

/-- A call returns if the calls for the entries that it comes to do. -/
theorem returns_of_descendants {a : A}
    (h : ∀ b, Descends ops cell a b →
      ∃ n, ∀ out, ∃ result, writeAt ops cell n b out = some result) :
    ∃ n, ∀ out, ∃ result, writeAt ops cell n a out = some result := by
  have hmono (n m : ℕ) (child : Option PyKey × A) (hle : n ≤ m)
      (hn : Descends ops cell a child.2 → ∀ out, ∃ result,
        writeAt ops cell n child.2 out = some result)
      (hdescends : Descends ops cell a child.2) (out : Buffer) :
      ∃ result, writeAt ops cell m child.2 out = some result := by
    obtain ⟨result, hresult⟩ := hn hdescends out
    exact ⟨result, writeAt_extends_le ops cell hle _ _ _ hresult⟩
  have hall : ∀ child ∈ (cell a).children, ∃ n, Descends ops cell a child.2 →
      ∀ out, ∃ result, writeAt ops cell n child.2 out = some result := by
    intro child _
    by_cases hdescends : Descends ops cell a child.2
    · obtain ⟨n, hn⟩ := h child.2 hdescends
      exact ⟨n, fun _ => hn⟩
    · exact ⟨0, fun hdescends' => absurd hdescends' hdescends⟩
  obtain ⟨n, hn⟩ := exists_common hmono hall
  refine ⟨n + 1, fun out => ?_⟩
  rw [writeAt_succ]
  rcases writesIf_opening ops (cell a) with ⟨haccepted, text, hwrites⟩ | ⟨-, hfails⟩
  · rw [andThen_of_writes hwrites]
    have hok (b : A) (out written : Buffer)
      (h : writeAt ops cell n b out = some (written, none)) : Writable ops cell b :=
      writable_of_ok h
    have hloop := walkChildren_returns hok (fun before key b after hsplit hkey hbefore =>
      hn (key, b) (by simp [hsplit])
        ⟨before, key, after, hsplit, haccepted, hkey, hbefore⟩) true (out ++ Utf8.encode text)
    obtain ⟨loop, hloop⟩ := hloop
    exact returns_andThen hloop fun _ => ⟨_, rfl⟩
  · obtain ⟨written, e, hfailed⟩ := andThen_of_fails hfails
      ((walkChildren (writeAt ops cell n) true (cell a).children).andThen
        (ofWriter (closing (cell a)))) out
    exact ⟨_, hfailed⟩

/-- **`write_json` comes to an end** exactly if it comes to no container that it is already
inside of. -/
theorem writeAt_returns_iff (ops : FloatOps F) (heap : Heap F) (a : Fin heap.size) :
    (∃ n, ∀ out, ∃ result, writeAt ops heap.cell n a out = some result) ↔
      AcyclicFrom (Descends ops heap.cell) a := by
  constructor
  · rintro ⟨n, hn⟩
    exact acyclicFrom_of_bound (fun _ _ _ => returns_of_descends) ⟨[], hn []⟩
  · intro hacyclic
    exact hacyclic.induction fun _ => returns_of_descendants

/-- A list that has been appended to itself. -/
def selfList : Heap (Option ℤ) := ⟨1, fun _ => .list [(0 : Fin 1)]⟩

/-- No number of nested calls is enough for it. -/
theorem writeAt_selfList_never_returns :
    ¬ ∃ n out result, writeAt wholeFloats selfList.cell n (0 : Fin 1) out = some result := by
  rintro ⟨n, out, result, h⟩
  -- The only entry of the list is the list.
  have hself : Descends wholeFloats selfList.cell (0 : Fin 1) (0 : Fin 1) :=
    ⟨[], none, [], rfl, trivial, trivial, by simp⟩
  have hacyclic : AcyclicFrom (Descends wholeFloats selfList.cell) (0 : Fin 1) :=
    acyclicFrom_of_bound (fun _ _ _ => returns_of_descends) ⟨out, result, h⟩
  exact hacyclic _ .refl (.single hself)

end Rayo
