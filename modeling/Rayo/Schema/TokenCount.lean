import Rayo.Schema.ReadBack

/-!
# How many tokens an object has after it has been read back

An object has no more tokens than before it was read back, and a dict has fewer if two of its keys
have become one. So two texts of the same tokens are the same part by part.
-/

namespace Rayo

open Json

variable {F : Type} {ops : FloatOps F} (parseFloat : List Char → F)

/-- The tokens of all entries, each after a comma. -/
def entriesSize (ops : FloatOps F) (entries : List (PyKey × PyValue F)) : ℕ :=
  (entries.map fun entry => (tokens ops entry.2).length + 3).sum

/-- Entries after others have as many tokens as they count. -/
theorem length_entryTokens (entries : List (PyKey × PyValue F)) :
    (entryTokens ops false entries).length = entriesSize ops entries := by
  induction entries with
  | nil => rfl
  | cons entry rest ih =>
    have hsize : entriesSize ops (entry :: rest) =
      (tokens ops entry.2).length + 3 + entriesSize ops rest := by
      simp [entriesSize]
    rw [hsize, ← ih]
    simp only [entryTokens, separator, Bool.false_eq_true, if_false, List.length_append,
      List.length_cons, List.length_nil]
    omega

/-- Entries with a first one have one token less, the comma. -/
theorem length_entryTokens_first (entries : List (PyKey × PyValue F)) :
    (entryTokens ops true entries).length = entriesSize ops entries - 1 := by
  cases entries with
  | nil => rfl
  | cons entry rest =>
    rw [← length_entryTokens]
    simp [entryTokens, separator]

/-- The first entry without its comma. -/
theorem entryTokens_congr {entries entries' : List (PyKey × PyValue F)}
    (h : entryTokens ops true entries = entryTokens ops true entries') :
    entryTokens ops false entries = entryTokens ops false entries' := by
  cases entries with
  | nil =>
    cases entries' with
    | nil => rfl
    | cons entry rest => simp [entryTokens, separator] at h
  | cons entry rest =>
    cases entries' with
    | nil => simp [entryTokens, separator] at h
    | cons entry' rest' => exact congrArg (List.cons (.punctuation ',')) h

/-- An entry that is set adds at most its own tokens. -/
theorem entriesSize_setEntry_le (key : PyKey) (v : PyValue F)
    (entries : List (PyKey × PyValue F)) :
    entriesSize ops (setEntry key v entries) ≤
      entriesSize ops entries + ((tokens ops v).length + 3) := by
  induction entries with
  | nil => simp [setEntry, entriesSize]
  | cons entry rest ih =>
    rw [setEntry]
    split
    · simp only [entriesSize, List.map_cons, List.sum_cons]
      omega
    · simp only [entriesSize, List.map_cons, List.sum_cons] at ih ⊢
      omega

/-- An entry for an old key replaces one. -/
theorem entriesSize_setEntry_lt {key : PyKey} {entries : List (PyKey × PyValue F)}
    (h : key ∈ entries.map Prod.fst) (v : PyValue F) :
    entriesSize ops (setEntry key v entries) <
      entriesSize ops entries + ((tokens ops v).length + 3) := by
  induction entries with
  | nil => exact absurd h (by simp)
  | cons entry rest ih =>
    rw [setEntry]
    split
    · simp only [entriesSize, List.map_cons, List.sum_cons]
      omega
    · next hne =>
      rw [List.map_cons, List.mem_cons] at h
      have hrest := ih (h.resolve_left fun heq => hne heq.symm)
      simp only [entriesSize, List.map_cons, List.sum_cons] at hrest ⊢
      omega

/-- Adding entries one by one. -/
theorem entriesSize_foldl_le (pairs entries : List (PyKey × PyValue F)) :
    entriesSize ops (pairs.foldl (fun entries entry => setEntry entry.1 entry.2 entries) entries) ≤
      entriesSize ops entries + entriesSize ops pairs := by
  induction pairs generalizing entries with
  | nil => simp
  | cons entry rest ih =>
    have hset : entriesSize ops (setEntry entry.1 entry.2 entries) ≤
        entriesSize ops entries + ((tokens ops entry.2).length + 3) :=
      entriesSize_setEntry_le entry.1 entry.2 entries
    have hrest := ih (setEntry entry.1 entry.2 entries)
    simp only [List.foldl_cons]
    have hsize : entriesSize ops (entry :: rest) =
      (tokens ops entry.2).length + 3 + entriesSize ops rest := by
      simp [entriesSize]
    omega

/-- A dict is as long as the entries that it was made of only if their keys are distinct. -/
theorem nodup_of_entriesSize_le {pairs : List (PyKey × PyValue F)}
    (h : entriesSize ops pairs ≤ entriesSize ops (ofEntries pairs)) :
    (pairs.map Prod.fst).Nodup := by
  have hfold (rest entries : List (PyKey × PyValue F)) (hnodup : (entries.map Prod.fst).Nodup)
      (hsize : entriesSize ops entries + entriesSize ops rest ≤ entriesSize ops
        (rest.foldl (fun entries entry => setEntry entry.1 entry.2 entries) entries)) :
      ((entries ++ rest).map Prod.fst).Nodup := by
    induction rest generalizing entries with
    | nil => simpa using hnodup
    | cons entry rest ih =>
      have hsplit : entriesSize ops (entry :: rest) =
        (tokens ops entry.2).length + 3 + entriesSize ops rest := by
        simp [entriesSize]
      rw [List.foldl_cons] at hsize
      have hfresh : entry.1 ∉ entries.map Prod.fst := by
        intro hmem
        have hlt : entriesSize ops (setEntry entry.1 entry.2 entries) <
            entriesSize ops entries + ((tokens ops entry.2).length + 3) :=
          entriesSize_setEntry_lt hmem entry.2
        have hle := hsize.trans (entriesSize_foldl_le rest (setEntry entry.1 entry.2 entries))
        omega
      have hone : entriesSize ops (entries ++ [(entry.1, entry.2)]) =
          entriesSize ops entries + ((tokens ops entry.2).length + 3) := by
        simp [entriesSize]
      rw [setEntry_of_not_mem hfresh] at hsize
      have hnodup' : ((entries ++ [(entry.1, entry.2)]).map Prod.fst).Nodup := by
        rw [List.map_append, List.map_singleton, List.nodup_append]
        refine ⟨hnodup, by simp, ?_⟩
        rintro key hkey _ hmem rfl
        rw [List.mem_singleton] at hmem
        exact hfresh (hmem ▸ hkey)
      have hrest := ih (entries ++ [(entry.1, entry.2)]) hnodup' (by omega)
      simpa using hrest
  exact hfold pairs [] (by simp) (by simpa [entriesSize, ofEntries] using h)

mutual

/-- Reading back adds no token. -/
theorem length_tokens_reload_le (v : PyValue F) :
    (tokens ops (reload ops parseFloat v)).length ≤ (tokens ops v).length := by
  match v with
  | .none | .bool _ | .int _ | .str _ | .other _ => exact le_rfl
  | .float x =>
    have hone : (tokens ops (loadNumber parseFloat (ops.display x))).length = 1 := by
      unfold loadNumber
      split <;> rfl
    exact hone.le
  | .dict entries =>
    have hentries := entriesSize_reloadEntries_le entries
    have hfold : entriesSize ops (ofEntries (reloadEntries ops parseFloat entries)) ≤
        entriesSize ops [] + entriesSize ops (reloadEntries ops parseFloat entries) :=
      entriesSize_foldl_le (reloadEntries ops parseFloat entries) []
    have hnil : entriesSize ops ([] : List (PyKey × PyValue F)) = 0 := rfl
    simp only [tokens, reload, List.length_cons, List.length_append, length_entryTokens_first]
    omega
  | .list items =>
    have hitems := length_itemTokens_reloadItems_le true items
    simp only [tokens, reload, List.length_cons, List.length_append]
    omega
  | .tuple items =>
    have hitems := length_itemTokens_reloadItems_le true items
    simp only [tokens, reload, List.length_cons, List.length_append]
    omega

/-- The entries that are read have at most as many tokens. -/
theorem entriesSize_reloadEntries_le (entries : List (PyKey × PyValue F)) :
    entriesSize ops (reloadEntries ops parseFloat entries) ≤ entriesSize ops entries := by
  match entries with
  | [] => exact le_rfl
  | (key, v) :: rest =>
    have hv := length_tokens_reload_le v
    have hrest := entriesSize_reloadEntries_le rest
    simp only [entriesSize, reloadEntries, List.map_cons, List.sum_cons] at hrest ⊢
    omega

/-- The items that are read have at most as many tokens. -/
theorem length_itemTokens_reloadItems_le (first : Bool) (items : List (PyValue F)) :
    (itemTokens ops first (reloadItems ops parseFloat items)).length ≤
      (itemTokens ops first items).length := by
  match items with
  | [] => exact le_rfl
  | v :: rest =>
    have hv := length_tokens_reload_le v
    have hrest := length_itemTokens_reloadItems_le false rest
    simp only [itemTokens, reloadItems, List.length_append]
    omega

end

end Rayo
