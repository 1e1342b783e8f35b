import Mathlib.Tactic.NormNum
import Rayo.Schema.TokenCount

/-!
# What was served and read is served again

A float that is printed without a fraction becomes an `int`, which loses the sign of the negative
zero and which `write_json` takes only up to 64 bits. `Reservable` says which objects keep their
text.
-/

namespace Rayo

open Json

variable {F : Type} {ops : FloatOps F} {parseFloat : List Char → F} {value : F → ℚ}
  {isSignNegative : F → Bool}

/-- The assumption about `Display` for one float: a literal with its sign and without an exponent,
which has no fraction exactly if the float is integral and is read back by `float` otherwise. -/
structure PrintedAs (ops : FloatOps F) (parseFloat : List Char → F) (value : F → ℚ)
    (isSignNegative : F → Bool) (x : F) (d : Decimal) : Prop where
  display : ops.display x = d.text
  integral : d.fraction = [] ↔ (value x).isInt = true
  sign : d.negative = isSignNegative x
  zero : d.fraction = [] → (d.toInt = 0 ↔ value x = 0)
  /-- The digits of `-2 ^ 63` are rounded, and printed as `-9223372036854776000`. -/
  lower : d.fraction = [] → (-2 ^ 63 ≤ d.toInt ↔ -2 ^ 63 < value x)
  upper : d.fraction = [] → (d.toInt < 2 ^ 63 ↔ value x < 2 ^ 63)
  readBack : d.fraction ≠ [] → parseFloat d.text = x

/-- The assumption about `Display` for every finite float. -/
def PrintsFloats (ops : FloatOps F) (parseFloat : List Char → F) (value : F → ℚ)
    (isSignNegative : F → Bool) : Prop :=
  ∀ x, ops.isFinite x = true → ∃ d, PrintedAs ops parseFloat value isSignNegative x d

/-- Floats that are printed as assumed are printed as literals. -/
theorem PrintsFloats.printsLiterals (h : PrintsFloats ops parseFloat value isSignNegative) :
    PrintsLiterals ops := fun x hx => (h x hx).imp fun _ hd => hd.display

/-- The float is not the negative zero, and between the ends of the 64-bit range if it is
integral. -/
def KeepsText (value : F → ℚ) (isSignNegative : F → Bool) (x : F) : Prop :=
  (value x).isInt = true →
    ¬ (isSignNegative x = true ∧ value x = 0) ∧ -2 ^ 63 < value x ∧ value x < 2 ^ 63

/-- Every float keeps its text, and no dict has two entries for one key. -/
inductive Reservable (value : F → ℚ) (isSignNegative : F → Bool) : PyValue F → Prop
  | none : Reservable value isSignNegative .none
  | bool (b : Bool) : Reservable value isSignNegative (.bool b)
  | int (i : ℤ) : Reservable value isSignNegative (.int i)
  | str (text : PyStr) : Reservable value isSignNegative (.str text)
  | float {x : F} : KeepsText value isSignNegative x → Reservable value isSignNegative (.float x)
  | dict {entries : List (PyKey × PyValue F)} : (entries.map Prod.fst).Nodup →
    (∀ entry ∈ entries, Reservable value isSignNegative entry.2) →
    Reservable value isSignNegative (.dict entries)
  | list {items : List (PyValue F)} : (∀ item ∈ items, Reservable value isSignNegative item) →
    Reservable value isSignNegative (.list items)
  | tuple {items : List (PyValue F)} : (∀ item ∈ items, Reservable value isSignNegative item) →
    Reservable value isSignNegative (.tuple items)

/-- The object that is read can be written, with the same tokens. -/
def KeepsTokens (ops : FloatOps F) (parseFloat : List Char → F) (v : PyValue F) : Prop :=
  Serializable ops (reload ops parseFloat v) ∧ tokens ops (reload ops parseFloat v) = tokens ops v

/-- An integer can be written exactly if it fits into 64 bits. -/
theorem serializable_int {i : ℤ} :
    Serializable ops (.int i) ↔ -2 ^ 63 ≤ i ∧ i < 2 ^ 63 := by
  constructor
  · intro h
    cases h with
    | int hlow hhigh => exact ⟨hlow, hhigh⟩
  · rintro ⟨hlow, hhigh⟩
    exact .int hlow hhigh

/-- A float keeps its tokens exactly if it keeps its text. -/
theorem keepsTokens_float (h : PrintsFloats ops parseFloat value isSignNegative) {x : F}
    (hx : ops.isFinite x = true) :
    KeepsTokens ops parseFloat (.float x) ↔ KeepsText value isSignNegative x := by
  obtain ⟨d, hd⟩ := h x hx
  unfold KeepsTokens KeepsText
  rw [reload, hd.display, loadNumber_text]
  by_cases hfraction : d.fraction = []
  · have hint := hd.integral.mp hfraction
    have hzero := hd.zero hfraction
    rw [if_pos hfraction, serializable_int, hd.lower hfraction, hd.upper hfraction]
    simp only [tokens, hd.display, List.cons.injEq, Token.number.injEq, and_true]
    rw [Decimal.text_eq_toString_iff hfraction, hd.sign, hzero]
    constructor
    · rintro ⟨hrange, hsign⟩ _
      exact ⟨hsign, hrange⟩
    · intro hkeeps
      exact ⟨(hkeeps hint).2, (hkeeps hint).1⟩
  · have hint : ¬ (value x).isInt = true := fun hint => hfraction (hd.integral.mpr hint)
    rw [if_neg hfraction, hd.readBack hfraction]
    exact iff_of_true ⟨.float hx, rfl⟩ fun hint' => absurd hint' hint

/-- Two equal token lists whose parts do not get shorter have equal parts. -/
theorem eq_of_append_eq {left left' right right' : List Token} (h : left ++ right = left' ++ right')
    (hleft : left.length ≤ left'.length) (hright : right.length ≤ right'.length) :
    left = left' ∧ right = right' := by
  have hlength := congrArg List.length h
  rw [List.length_append, List.length_append] at hlength
  exact List.append_inj h (by omega)

/-- What holds of the items that are read holds of what is read of each item. -/
theorem forall_reloadItems {p : PyValue F → Prop} {items : List (PyValue F)} :
    (∀ item ∈ reloadItems ops parseFloat items, p item) ↔
      ∀ item ∈ items, p (reload ops parseFloat item) := by
  induction items with
  | nil => simp [reloadItems]
  | cons v rest ih => simp [reloadItems, ih]

/-- What holds of the entries that are read holds of what is read of each entry. -/
theorem forall_reloadEntries {p : PyKey × PyValue F → Prop} {entries : List (PyKey × PyValue F)} :
    (∀ entry ∈ reloadEntries ops parseFloat entries, p entry) ↔
      ∀ entry ∈ entries, p (entry.1, reload ops parseFloat entry.2) := by
  rw [reloadEntries_eq_map, List.forall_mem_map]

/-- A sequence keeps its tokens exactly if every item does. -/
theorem itemTokens_reloadItems_iff (first : Bool) (items : List (PyValue F)) :
    itemTokens ops first (reloadItems ops parseFloat items) = itemTokens ops first items ↔
      ∀ item ∈ items, tokens ops (reload ops parseFloat item) = tokens ops item := by
  induction items generalizing first with
  | nil => simp [reloadItems]
  | cons v rest ih =>
    rw [List.forall_mem_cons, ← ih false]
    simp only [itemTokens, reloadItems, List.append_cancel_left_eq]
    constructor
    · intro h
      exact eq_of_append_eq h (length_tokens_reload_le parseFloat v)
        (length_itemTokens_reloadItems_le parseFloat false rest)
    · rintro ⟨hv, hrest⟩
      rw [hv, hrest]

/-- The entries that are read have the same tokens exactly if each value has. -/
theorem entryTokens_reloadEntries_iff (first : Bool) (entries : List (PyKey × PyValue F)) :
    entryTokens ops first (reloadEntries ops parseFloat entries) =
        entryTokens ops first entries ↔
      ∀ entry ∈ entries, tokens ops (reload ops parseFloat entry.2) = tokens ops entry.2 := by
  induction entries generalizing first with
  | nil => simp [reloadEntries]
  | cons entry rest ih =>
    rw [List.forall_mem_cons, ← ih false]
    simp only [entryTokens, reloadEntries, List.append_cancel_left_eq, List.cons.injEq, true_and]
    constructor
    · intro h
      have hlength : entriesSize ops (reloadEntries ops parseFloat rest) ≤
        entriesSize ops rest := entriesSize_reloadEntries_le parseFloat rest
      rw [← length_entryTokens, ← length_entryTokens] at hlength
      exact eq_of_append_eq h (length_tokens_reload_le parseFloat entry.2) hlength
    · rintro ⟨hv, hrest⟩
      rw [hv, hrest]

/-- A dict that keeps its tokens has no repeated key. -/
theorem nodup_of_keepsTokens {entries : List (PyKey × PyValue F)}
    (h : entryTokens ops true (ofEntries (reloadEntries ops parseFloat entries)) =
      entryTokens ops true entries) : (entries.map Prod.fst).Nodup := by
  have hlength := congrArg List.length (entryTokens_congr h)
  rw [length_entryTokens, length_entryTokens] at hlength
  have hle : entriesSize ops (reloadEntries ops parseFloat entries) ≤ entriesSize ops entries :=
    entriesSize_reloadEntries_le parseFloat entries
  have hnodup := nodup_of_entriesSize_le (hle.trans hlength.ge)
  rwa [map_fst_reloadEntries] at hnodup

/-- A list keeps its tokens exactly if every item does. -/
theorem keepsTokens_list {items : List (PyValue F)} :
    KeepsTokens ops parseFloat (.list items) ↔ ∀ item ∈ items, KeepsTokens ops parseFloat item := by
  have htokens : itemTokens ops true (reloadItems ops parseFloat items) =
      itemTokens ops true items ↔ _ := itemTokens_reloadItems_iff true items
  unfold KeepsTokens
  rw [reload, tokens, tokens, List.cons.injEq, List.append_cancel_right_eq, htokens]
  constructor
  · rintro ⟨hserializable, -, hsame⟩ item hitem
    cases hserializable with
    | list hitems => exact ⟨forall_reloadItems.mp hitems item hitem, hsame item hitem⟩
  · intro hkeeps
    refine ⟨.list (forall_reloadItems.mpr fun item hitem => (hkeeps item hitem).1), rfl, ?_⟩
    exact fun item hitem => (hkeeps item hitem).2

/-- A dict also needs distinct keys. -/
theorem keepsTokens_dict {entries : List (PyKey × PyValue F)}
    (hkeys : ∀ entry ∈ entries, ∃ text, entry.1 = .str text ∧ ∀ p ∈ text, p.val.isValidChar) :
    KeepsTokens ops parseFloat (.dict entries) ↔ (entries.map Prod.fst).Nodup ∧
      ∀ entry ∈ entries, KeepsTokens ops parseFloat entry.2 := by
  have hsame (hnodup : (entries.map Prod.fst).Nodup) :
      ofEntries (reloadEntries ops parseFloat entries) = reloadEntries ops parseFloat entries :=
    ofEntries_of_nodup (by rwa [map_fst_reloadEntries])
  unfold KeepsTokens
  rw [reload, tokens, tokens, List.cons.injEq, List.append_cancel_right_eq]
  constructor
  · rintro ⟨hserializable, -, htokens⟩
    have hnodup := nodup_of_keepsTokens htokens
    rw [hsame hnodup] at hserializable htokens
    rw [entryTokens_reloadEntries_iff] at htokens
    cases hserializable with
    | dict _ hvalues =>
      rw [forall_reloadEntries] at hvalues
      exact ⟨hnodup, fun entry hentry => ⟨hvalues entry hentry, htokens entry hentry⟩⟩
  · rintro ⟨hnodup, hkeeps⟩
    rw [hsame hnodup, entryTokens_reloadEntries_iff]
    refine ⟨.dict (forall_reloadEntries.mpr hkeys) (forall_reloadEntries.mpr ?_), rfl, ?_⟩
    · exact fun entry hentry => (hkeeps entry hentry).1
    · exact fun entry hentry => (hkeeps entry hentry).2

mutual

/-- **An object keeps its tokens exactly if it is reservable**, for every nesting. -/
theorem keepsTokens_iff (h : PrintsFloats ops parseFloat value isSignNegative) {v : PyValue F}
    (hv : Serializable ops v) :
    KeepsTokens ops parseFloat v ↔ Reservable value isSignNegative v := by
  match v with
  | .none => exact iff_of_true ⟨.none, rfl⟩ .none
  | .bool b => exact iff_of_true ⟨.bool b, rfl⟩ (.bool b)
  | .int i => exact iff_of_true ⟨hv, rfl⟩ (.int i)
  | .str text => exact iff_of_true ⟨hv, rfl⟩ (.str text)
  | .float x =>
    cases hv with
    | float hx =>
      rw [keepsTokens_float h hx]
      exact ⟨.float, fun hkeeps => by cases hkeeps; assumption⟩
  | .dict entries =>
    cases hv with
    | dict hkeys hvalues =>
      rw [keepsTokens_dict hkeys, keepsTokens_entries_iff h hvalues]
      constructor
      · rintro ⟨hnodup, hkeeps⟩
        exact .dict hnodup hkeeps
      · intro hkeeps
        cases hkeeps with
        | dict hnodup hkeeps => exact ⟨hnodup, hkeeps⟩
  | .list items =>
    cases hv with
    | list hitems =>
      rw [keepsTokens_list, keepsTokens_items_iff h hitems]
      exact ⟨.list, fun hkeeps => by cases hkeeps; assumption⟩
  | .tuple items =>
    cases hv with
    | tuple hitems =>
      -- A tuple has the tokens of the list and is read back as one.
      have hlist : KeepsTokens ops parseFloat (.tuple items) ↔
        KeepsTokens ops parseFloat (.list items) := Iff.rfl
      rw [hlist, keepsTokens_list, keepsTokens_items_iff h hitems]
      exact ⟨.tuple, fun hkeeps => by cases hkeeps; assumption⟩
  | .other _ => nomatch hv

/-- Items keep their tokens exactly if every float in them keeps its text and no key is there twice.
-/
theorem keepsTokens_items_iff (h : PrintsFloats ops parseFloat value isSignNegative)
    {items : List (PyValue F)} (hitems : ∀ item ∈ items, Serializable ops item) :
    (∀ item ∈ items, KeepsTokens ops parseFloat item) ↔
      ∀ item ∈ items, Reservable value isSignNegative item := by
  match items with
  | [] => simp
  | v :: rest =>
    rw [List.forall_mem_cons, List.forall_mem_cons, keepsTokens_iff h (hitems _ List.mem_cons_self),
      keepsTokens_items_iff h fun e he => hitems e (List.mem_cons_of_mem _ he)]

/-- The values of a dictionary keep their tokens exactly if every float in them keeps its text and
no key is there twice. -/
theorem keepsTokens_entries_iff (h : PrintsFloats ops parseFloat value isSignNegative)
    {entries : List (PyKey × PyValue F)}
    (hvalues : ∀ entry ∈ entries, Serializable ops entry.2) :
    (∀ entry ∈ entries, KeepsTokens ops parseFloat entry.2) ↔
      ∀ entry ∈ entries, Reservable value isSignNegative entry.2 := by
  match entries with
  | [] => simp
  | (key, v) :: rest =>
    rw [List.forall_mem_cons, List.forall_mem_cons,
      keepsTokens_iff h (hvalues _ List.mem_cons_self),
      keepsTokens_entries_iff h fun e he => hvalues e (List.mem_cons_of_mem _ he)]

end

/-- `json.loads` reads the written bytes, and what it makes of them is written as the same
bytes. -/
def ServedAgain (ops : FloatOps F) (parseFloat : List Char → F) (v : PyValue F) : Prop :=
  ∃ v', loads parseFloat (writeJson ops v []).1 = some v' ∧
    writeJson ops v' [] = ((writeJson ops v []).1, none)

/-- The bytes are the same exactly if the tokens are. -/
theorem servedAgain_iff_keepsTokens (hdisplay : PrintsLiterals ops) {v : PyValue F}
    (hv : Serializable ops v) : ServedAgain ops parseFloat v ↔ KeepsTokens ops parseFloat v := by
  have hwritten : writeJson ops v [] = (Utf8.encode (spellAll (tokens ops v)), none) :=
    writes_tokens hv []
  have hloads := loads_writeJson parseFloat hdisplay hv
  unfold ServedAgain
  rw [hwritten, hloads]
  constructor
  · rintro ⟨v', hv', hagain⟩
    obtain rfl := Option.some.inj hv'
    have hserializable := serializable_of_ok hdisplay (congrArg Prod.snd hagain)
    have hwritten' : writeJson ops (reload ops parseFloat v) [] =
      (Utf8.encode (spellAll (tokens ops (reload ops parseFloat v))), none) :=
      writes_tokens hserializable []
    rw [hwritten', Prod.mk.injEq] at hagain
    have hdecoded := congrArg Utf8.decode? hagain.1
    rw [Utf8.decode?_encode, Utf8.decode?_encode] at hdecoded
    exact ⟨hserializable, tokens_eq_of_spellAll hdisplay hserializable hv
      (Option.some.inj hdecoded)⟩
  · rintro ⟨hserializable, htokens⟩
    refine ⟨_, rfl, ?_⟩
    rw [← htokens]
    exact writes_tokens hserializable []

/-- **What was served is served again** exactly if it is reservable. -/
theorem servedAgain_iff_reservable (h : PrintsFloats ops parseFloat value isSignNegative)
    {v : PyValue F} (hv : (writeJson ops v []).2 = none) :
    ServedAgain ops parseFloat v ↔ Reservable value isSignNegative v := by
  have hserializable := serializable_of_ok h.printsLiterals hv
  rw [servedAgain_iff_keepsTokens h.printsLiterals hserializable]
  exact keepsTokens_iff h hserializable

/-- Some floats. -/
inductive SampleFloat
  | half
  | negativeZero
  | tenTo20

namespace SampleFloat

/-- There is nothing after the point. -/
theorem noFraction_isDigit : ∀ c ∈ ([] : List Char), c.isDigit = true := by
  intro c hc
  cases hc

/-- How they are printed. -/
def literal : SampleFloat → Decimal
  | half => ⟨false, ['0'], ['5'], by simp, by simp, by simp, by simp⟩
  | negativeZero => ⟨true, ['0'], [], by simp, noFraction_isDigit, by simp, by simp⟩
  | tenTo20 => .ofInt 100000000000000000000

/-- What is known of the sample floats. -/
def floatOps : FloatOps SampleFloat where
  isFinite _ := true
  display x := x.literal.text

/-- `float`, on the only literal with a fraction. -/
def readFloat (_ : List Char) : SampleFloat := half

/-- The value of a sample float. -/
def number : SampleFloat → ℚ
  | half => 1 / 2
  | negativeZero => 0
  | tenTo20 => 10 ^ 20

/-- The sign of a sample float. -/
def signBit : SampleFloat → Bool
  | negativeZero => true
  | _ => false

/-- The literal of the large sample is its value. -/
theorem toInt_tenTo20 : (literal tenTo20).toInt = 10 ^ 20 := by
  have hvalue : ((literal tenTo20).toInt : ℚ) = (10 ^ 20 : ℤ) := by
    rw [← Decimal.value_eq_toInt rfl, literal, Decimal.value_ofInt]
    norm_num
  exact_mod_cast hvalue

/-- The sample floats are printed as assumed. -/
theorem printsFloats : PrintsFloats floatOps readFloat number signBit := by
  intro x _
  refine ⟨x.literal, ?_⟩
  have hhalf : (1 / 2 : ℚ).isInt = false := by decide +kernel
  cases x with
  | half => exact {
      display := rfl
      integral := by simp only [number, hhalf]; decide
      sign := rfl
      zero := nofun
      lower := nofun
      upper := nofun
      readBack _ := rfl }
  | negativeZero =>
    have hzero : (literal negativeZero).toInt = 0 := by decide
    exact {
      display := rfl
      integral := iff_of_true rfl rfl
      sign := rfl
      zero _ := by simp only [hzero, number]
      lower _ := by norm_num [hzero, number]
      upper _ := by norm_num [hzero, number]
      readBack h := absurd rfl h }
  | tenTo20 => exact {
      display := rfl
      integral := iff_of_true rfl (by decide +kernel)
      sign := rfl
      zero _ := by norm_num [toInt_tenTo20, number]
      lower _ := by norm_num [toInt_tenTo20, number]
      upper _ := by norm_num [toInt_tenTo20, number]
      readBack h := absurd rfl h }

end SampleFloat

/-- A dict with a list in it. -/
def nestedSample : PyValue SampleFloat :=
  .dict [(.str [0x61], .list [.float .half, .int 3]), (.str [0x62], .tuple [])]

/-- The sample is served again as it was. -/
theorem servedAgain_nestedSample :
    ServedAgain SampleFloat.floatOps SampleFloat.readFloat nestedSample := by
  have hhalf : KeepsText SampleFloat.number SampleFloat.signBit .half := by
    intro hint
    exact absurd hint (by decide +kernel)
  refine (servedAgain_iff_reservable SampleFloat.printsFloats rfl).mpr (.dict (by decide) ?_)
  simp only [List.forall_mem_cons]
  refine ⟨.list ?_, .tuple (by simp), by simp⟩
  simp only [List.forall_mem_cons]
  exact ⟨.float hhalf, .int 3, by simp⟩

/-- `10 ** 20` and the negative zero are written, and what is read from that is refused or written
in another way. -/
theorem not_servedAgain_integralFloats :
    (PrintsFloats SampleFloat.floatOps SampleFloat.readFloat SampleFloat.number
        SampleFloat.signBit) ∧
      (writeJson SampleFloat.floatOps (.float .tenTo20) []).2 = none ∧
      ¬ ServedAgain SampleFloat.floatOps SampleFloat.readFloat (.float .tenTo20) ∧
      (writeJson SampleFloat.floatOps (.float .negativeZero) []).2 = none ∧
      ¬ ServedAgain SampleFloat.floatOps SampleFloat.readFloat (.float .negativeZero) := by
  have hprints := SampleFloat.printsFloats
  refine ⟨hprints, rfl, ?_, rfl, ?_⟩
  · rw [servedAgain_iff_keepsTokens hprints.printsLiterals (.float rfl),
      keepsTokens_float hprints rfl]
    intro hkeeps
    have hrange := (hkeeps (by decide +kernel)).2.2
    norm_num [SampleFloat.number] at hrange
  · rw [servedAgain_iff_keepsTokens hprints.printsLiterals (.float rfl),
      keepsTokens_float hprints rfl]
    intro hkeeps
    exact (hkeeps rfl).1 ⟨rfl, rfl⟩

end Rayo
