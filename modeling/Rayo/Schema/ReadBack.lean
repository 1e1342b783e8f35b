import Rayo.Schema.PythonLoads
import Rayo.Schema.WrittenTokens

/-!
# What `json.loads` makes of written bytes

`reload` is what `json.loads` makes of the text of an object. A float that is printed without a
fraction becomes an `int`, everything else is read back as it was.
-/

namespace Rayo

open Json

variable {F : Type} {ops : FloatOps F} {parseFloat : List Char → F}

/-- A literal is spelled as an integer exactly if it has no fraction. -/
theorem isIntSpelling_text (d : Decimal) : isIntSpelling d.text = true ↔ d.fraction = [] := by
  unfold isIntSpelling Decimal.text
  constructor
  · intro h
    by_contra hne
    rw [if_neg hne] at h
    have hpoint := List.all_eq_true.mp h '.' (by simp)
    exact absurd hpoint (by decide)
  · intro h
    rw [List.all_eq_true]
    intro c hc
    rw [h, if_pos rfl, List.append_nil, List.mem_append] at hc
    rcases hc with hsign | hwhole
    · have hminus : c = '-' := by
        split at hsign
        · exact List.mem_singleton.mp hsign
        · exact absurd hsign List.not_mem_nil
      simp [hminus]
    · simp [d.whole_isDigit c hwhole]

/-- A literal without a fraction is read as its integer. -/
theorem pyInt_text {d : Decimal} (h : d.fraction = []) : pyInt d.text = d.toInt := by
  unfold Decimal.text Decimal.toInt
  rw [h, if_pos rfl, List.append_nil]
  cases d.negative with
  | true => simp [pyInt]
  | false =>
    obtain ⟨c, rest, hwhole⟩ := List.exists_cons_of_ne_nil d.whole_ne_nil
    have hdigit : c.isDigit = true := d.whole_isDigit c (by simp [hwhole])
    have hne : c ≠ '-' := by
      rintro rfl
      exact absurd hdigit (by decide)
    rw [if_neg Bool.false_ne_true, if_neg Bool.false_ne_true, List.nil_append, hwhole, pyInt]
    intro digits heq
    exact hne (List.cons.inj heq).1

/-- A literal is read as an integer or as a float, by its fraction. -/
theorem loadNumber_text (d : Decimal) :
    loadNumber parseFloat d.text =
      if d.fraction = [] then .int d.toInt else .float (parseFloat d.text) := by
  unfold loadNumber
  by_cases h : d.fraction = []
  · rw [if_pos ((isIntSpelling_text d).mpr h), if_pos h, pyInt_text h]
  · rw [if_neg fun hint => h ((isIntSpelling_text d).mp hint), if_neg h]

variable (parseFloat)

/-- An integer is read back. -/
theorem loadNumber_toString (i : ℤ) :
    loadNumber parseFloat (toString i).toList = .int i := by
  have hvalue : ((Decimal.ofInt i).toInt : ℚ) = i := by
    rw [← Decimal.value_eq_toInt rfl, Decimal.value_ofInt]
  have hint : (Decimal.ofInt i).toInt = i := by exact_mod_cast hvalue
  rw [← Decimal.text_ofInt, loadNumber_text, if_pos (show (Decimal.ofInt i).fraction = [] from rfl),
    hint]

/-- A string is read back. -/
theorem map_ofChar_toStr {text : PyStr} (h : ∀ p ∈ text, p.val.isValidChar) :
    ((toStr text).getD []).map CodePoint.ofChar = text := by
  have hcodes := map_toNat_of_toStr (toStr_of_isValidChar h)
  apply List.map_injective_iff.mpr Fin.val_injective
  rw [List.map_map, ← hcodes]
  rfl

mutual

/-- What `json.loads` makes of the text of an object. -/
def reload (ops : FloatOps F) (parseFloat : List Char → F) : PyValue F → PyValue F
  | .float x => loadNumber parseFloat (ops.display x)
  | .dict entries => .dict (ofEntries (reloadEntries ops parseFloat entries))
  | .list items => .list (reloadItems ops parseFloat items)
  | .tuple items => .list (reloadItems ops parseFloat items)
  | v => v
termination_by structural v => v

/-- The entries before they are put into a dict. -/
def reloadEntries (ops : FloatOps F) (parseFloat : List Char → F) :
    List (PyKey × PyValue F) → List (PyKey × PyValue F)
  | [] => []
  | (key, v) :: rest => (key, reload ops parseFloat v) :: reloadEntries ops parseFloat rest
termination_by structural entries => entries

/-- The items of a sequence. -/
def reloadItems (ops : FloatOps F) (parseFloat : List Char → F) :
    List (PyValue F) → List (PyValue F)
  | [] => []
  | v :: rest => reload ops parseFloat v :: reloadItems ops parseFloat rest
termination_by structural items => items

end

/-- The entries are read one by one. -/
theorem reloadEntries_eq_map (entries : List (PyKey × PyValue F)) :
    reloadEntries ops parseFloat entries =
      entries.map fun entry => (entry.1, reload ops parseFloat entry.2) := by
  induction entries with
  | nil => rfl
  | cons entry rest ih => rw [reloadEntries, ih, List.map_cons]

/-- The entries keep their keys. -/
theorem map_fst_reloadEntries (entries : List (PyKey × PyValue F)) :
    (reloadEntries ops parseFloat entries).map Prod.fst = entries.map Prod.fst := by
  rw [reloadEntries_eq_map, List.map_map]
  rfl

/-- The text of a serializable object does not begin with a closing bracket. -/
theorem tokens_start {v : PyValue F} (hv : Serializable ops v) :
    ∃ token rest, tokens ops v = token :: rest ∧ token ≠ .punctuation ']' := by
  cases hv <;> exact ⟨_, _, rfl, by simp⟩

/-- The first item of a list is read like any other value. -/
theorem loadTokens_firstItem {v : PyValue F} (hv : Serializable ops v) (rest : List Token)
    (stack : List (Frame F)) :
    loadTokens parseFloat (tokens ops v ++ rest) (.firstItem stack) =
      loadTokens parseFloat (tokens ops v ++ rest) (.value (.list [] :: stack)) := by
  obtain ⟨token, more, htokens, hne⟩ := tokens_start hv
  rw [htokens, List.cons_append, loadTokens, loadTokens]
  simp [loadStep, hne]

mutual

/-- **The reader is at the end of the object** after its tokens, whatever was open before. -/
theorem loadTokens_tokens {v : PyValue F} (hv : Serializable ops v) (rest : List Token)
    (stack : List (Frame F)) :
    loadTokens parseFloat (tokens ops v ++ rest) (.value stack) =
      loadTokens parseFloat rest (.read (reload ops parseFloat v) stack) := by
  match v with
  | .none => rfl
  | .bool b => rfl
  | .int i =>
    have hint := loadNumber_toString parseFloat i
    simp only [tokens, reload, List.cons_append, List.nil_append, loadTokens, loadStep, loadValue,
      hint, Option.bind_some]
  | .float x => rfl
  | .str text =>
    cases hv with
    | str htext =>
      simp [tokens, loadTokens, loadStep, loadValue, map_ofChar_toStr htext, reload]
  | .dict entries =>
    cases hv with
    | dict hkeys hvalues =>
      have hclosed := loadTokens_firstEntry hkeys hvalues rest stack
      simpa [tokens, reload, loadTokens, loadStep, loadValue] using hclosed
  | .list items =>
    cases hv with
    | list hitems =>
      have hclosed := loadTokens_items hitems rest stack
      simpa [tokens, reload, loadTokens, loadStep, loadValue] using hclosed
  | .tuple items =>
    cases hv with
    | tuple hitems =>
      have hclosed := loadTokens_items hitems rest stack
      simpa [tokens, reload, loadTokens, loadStep, loadValue] using hclosed
  | .other _ => nomatch hv

/-- All items of a list. -/
theorem loadTokens_items {items : List (PyValue F)}
    (hitems : ∀ item ∈ items, Serializable ops item) (rest : List Token)
    (stack : List (Frame F)) :
    loadTokens parseFloat (itemTokens ops true items ++ .punctuation ']' :: rest)
        (.firstItem stack) =
      loadTokens parseFloat rest (.read (.list (reloadItems ops parseFloat items)) stack) := by
  match items with
  | [] => rfl
  | v :: items =>
    have hfirst := hitems _ List.mem_cons_self
    have hlater := loadTokens_moreItems (fun e he => hitems e (List.mem_cons_of_mem _ he)) rest
      (reload ops parseFloat v) [] stack
    simp only [itemTokens, separator, if_true, List.nil_append, List.append_assoc]
    rw [loadTokens_firstItem parseFloat hfirst, loadTokens_tokens hfirst, hlater]
    rfl

/-- The items after one that has been read. -/
theorem loadTokens_moreItems {items : List (PyValue F)}
    (hitems : ∀ item ∈ items, Serializable ops item) (rest : List Token) (last : PyValue F)
    (before : List (PyValue F)) (stack : List (Frame F)) :
    loadTokens parseFloat (itemTokens ops false items ++ .punctuation ']' :: rest)
        (.read last (.list before :: stack)) =
      loadTokens parseFloat rest
        (.read (.list ((last :: before).reverse ++ reloadItems ops parseFloat items)) stack) := by
  match items with
  | [] => simp [itemTokens, reloadItems, loadTokens, loadStep]
  | v :: items =>
    have hv := loadTokens_tokens (hitems _ List.mem_cons_self)
      (itemTokens ops false items ++ .punctuation ']' :: rest) (.list (last :: before) :: stack)
    have hlater := loadTokens_moreItems (fun e he => hitems e (List.mem_cons_of_mem _ he)) rest
      (reload ops parseFloat v) (last :: before) stack
    simp only [itemTokens, separator, Bool.false_eq_true, if_false, List.cons_append,
      List.nil_append, List.append_assoc, loadTokens, loadStep, if_true, Option.bind_some]
    rw [hv, hlater]
    simp [reloadItems]

/-- All entries of a dict. -/
theorem loadTokens_firstEntry {entries : List (PyKey × PyValue F)}
    (hkeys : ∀ entry ∈ entries, ∃ text, entry.1 = .str text ∧ ∀ p ∈ text, p.val.isValidChar)
    (hvalues : ∀ entry ∈ entries, Serializable ops entry.2) (rest : List Token)
    (stack : List (Frame F)) :
    loadTokens parseFloat (entryTokens ops true entries ++ .punctuation '}' :: rest)
        (.firstKey stack) =
      loadTokens parseFloat rest
        (.read (.dict (ofEntries (reloadEntries ops parseFloat entries))) stack) := by
  match entries with
  | [] => rfl
  | (key, v) :: entries =>
    obtain ⟨text, hkey, htext⟩ := hkeys _ List.mem_cons_self
    obtain rfl : key = .str text := hkey
    have hv := loadTokens_tokens (hvalues _ List.mem_cons_self)
      (entryTokens ops false entries ++ .punctuation '}' :: rest)
      (.dict [] (.str text) :: stack)
    have hlater := loadTokens_moreEntries
      (fun e he => hkeys e (List.mem_cons_of_mem _ he))
      (fun e he => hvalues e (List.mem_cons_of_mem _ he)) rest
      (reload ops parseFloat v) [] (.str text) stack
    simp only [entryTokens, separator, if_true, List.nil_append, List.cons_append,
      List.append_assoc, keyToken, loadTokens, loadStep, loadKey, map_ofChar_toStr htext,
      Option.bind_some]
    rw [hv, hlater]
    rfl

/-- The entries after one whose value has been read. -/
theorem loadTokens_moreEntries {entries : List (PyKey × PyValue F)}
    (hkeys : ∀ entry ∈ entries, ∃ text, entry.1 = .str text ∧ ∀ p ∈ text, p.val.isValidChar)
    (hvalues : ∀ entry ∈ entries, Serializable ops entry.2) (rest : List Token)
    (last : PyValue F) (before : List (PyKey × PyValue F)) (key : PyKey)
    (stack : List (Frame F)) :
    loadTokens parseFloat (entryTokens ops false entries ++ .punctuation '}' :: rest)
        (.read last (.dict before key :: stack)) =
      loadTokens parseFloat rest
        (.read (.dict ((reloadEntries ops parseFloat entries).foldl
          (fun entries entry => setEntry entry.1 entry.2 entries)
          (setEntry key last before))) stack) := by
  match entries with
  | [] => simp [entryTokens, reloadEntries, loadTokens, loadStep]
  | (key', v) :: entries =>
    obtain ⟨text, hkey, htext⟩ := hkeys _ List.mem_cons_self
    obtain rfl : key' = .str text := hkey
    have hv := loadTokens_tokens (hvalues _ List.mem_cons_self)
      (entryTokens ops false entries ++ .punctuation '}' :: rest)
      (.dict (setEntry key last before) (.str text) :: stack)
    have hlater := loadTokens_moreEntries
      (fun e he => hkeys e (List.mem_cons_of_mem _ he))
      (fun e he => hvalues e (List.mem_cons_of_mem _ he)) rest
      (reload ops parseFloat v) (setEntry key last before) (.str text) stack
    simp only [entryTokens, separator, Bool.false_eq_true, if_false, List.cons_append,
      List.nil_append, List.append_assoc, keyToken, loadTokens, loadStep, if_true, loadKey,
      map_ofChar_toStr htext, Option.bind_some]
    rw [hv, hlater]
    rfl

end

/-- What the written bytes of a serializable object are read as. -/
theorem loads_writeJson (hdisplay : PrintsLiterals ops) {v : PyValue F}
    (hv : Serializable ops v) :
    loads parseFloat (Utf8.encode (spellAll (tokens ops v))) =
      some (reload ops parseFloat v) := by
  have hread := loadTokens_tokens parseFloat hv [] []
  rw [List.append_nil] at hread
  simp [loads, (lexes_tokens hdisplay hv).tokenize_eq, hread, loadTokens, LoadState.result]

end Rayo
