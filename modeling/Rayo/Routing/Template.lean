import Mathlib.Data.List.TakeWhile

/-!
# Route templates

The grammar of a routing tree. `{name}` captures one segment and `{*name}`, at the end, what
is left of the path; a doubled brace is a literal brace. Nothing else restricts a name, and
names may be repeated.
-/

namespace Template

/-- A piece of template text, once doubled braces are read as one. -/
inductive Token
  | plain (c : Char)
  | escapedOpening
  | escapedClosing
  | opening
  | closing
  deriving DecidableEq

/-- The character that a token stands for. -/
def Token.char : Token → Char
  | .plain c => c
  | .escapedOpening | .opening => '{'
  | .escapedClosing | .closing => '}'

/-- How a token is spelled. -/
def Token.text : Token → List Char
  | .plain c => [c]
  | .escapedOpening => ['{', '{']
  | .escapedClosing => ['}', '}']
  | .opening => ['{']
  | .closing => ['}']

/-- Read the tokens from left to right. -/
def tokenize : List Char → List Token
  | '{' :: '{' :: rest => .escapedOpening :: tokenize rest
  | '}' :: '}' :: rest => .escapedClosing :: tokenize rest
  | '{' :: rest => .opening :: tokenize rest
  | '}' :: rest => .closing :: tokenize rest
  | c :: rest => .plain c :: tokenize rest
  | [] => []

/-- The tokens spell the text that they were read from. -/
theorem flatMap_text_tokenize (path : List Char) :
    (tokenize path).flatMap Token.text = path := by
  fun_induction tokenize path <;> simp_all [Token.text]

/-- A plain token is no brace. -/
theorem ne_brace_of_mem_tokenize {path : List Char} {c : Char} (h : .plain c ∈ tokenize path) :
    c ≠ '{' ∧ c ≠ '}' := by
  fun_induction tokenize path with
  | case1 rest ih => exact ih (by simpa using h)
  | case2 rest ih => exact ih (by simpa using h)
  | case3 rest _ ih => exact ih (by simpa using h)
  | case4 rest _ ih => exact ih (by simpa using h)
  | case5 d rest _ _ hopening hclosing ih =>
    rcases List.mem_cons.mp h with heq | h
    · obtain rfl := Token.plain.inj heq
      exact ⟨hopening, hclosing⟩
    · exact ih h
  | case6 => simp at h

/-- A part of a template. -/
inductive Piece
  | literal (token : Token)
  | param (name : List Token)
  | catchAll (name : List Token)
  deriving DecidableEq

/-- The tokens of a piece. -/
def Piece.tokens : Piece → List Token
  | .literal token => [token]
  | .param name => .opening :: name ++ [.closing]
  | .catchAll name => .opening :: .plain '*' :: name ++ [.closing]

/-- How a list of pieces is spelled. -/
def text (pieces : List Piece) : List Char := (pieces.flatMap Piece.tokens).flatMap Token.text

/-- What stands between two braces, with the tokens that follow. A name is not empty, and a
catch-all ends the template. -/
def capture : List Token → List Token → Option Piece
  | [], _ => none
  | [.plain '*'], _ => none
  | .plain '*' :: name, [] => some (.catchAll name)
  | .plain '*' :: _, _ :: _ => none
  | name, _ => some (.param name)

/-- Read the pieces, outside of braces or with the name read so far. -/
def readPieces : Option (List Token) → List Token → Option (List Piece)
  | none, [] => some []
  | none, .opening :: rest => readPieces (some []) rest
  | none, .closing :: _ => none
  | none, token :: rest => (readPieces none rest).map (.literal token :: ·)
  | some _, [] => none
  | some name, .closing :: rest =>
    match capture name rest, readPieces none rest with
    | some piece, some pieces => some (piece :: pieces)
    | _, _ => none
  | some name, token :: rest => readPieces (some (name ++ [token])) rest

/-- Read a template. -/
def read (path : List Char) : Option (List Piece) := readPieces none (tokenize path)

/-- What a template that was read is made of. -/
inductive WellFormed : List Piece → Prop
  | nil : WellFormed []
  | plain {c : Char} {pieces : List Piece} (hc : c ≠ '{' ∧ c ≠ '}') :
    WellFormed pieces → WellFormed (.literal (.plain c) :: pieces)
  | escapedOpening {pieces : List Piece} :
    WellFormed pieces → WellFormed (.literal .escapedOpening :: pieces)
  | escapedClosing {pieces : List Piece} :
    WellFormed pieces → WellFormed (.literal .escapedClosing :: pieces)
  | param {name : List Token} {pieces : List Piece} (hname : name ≠ []) :
    WellFormed pieces → WellFormed (.param name :: pieces)
  | catchAll {name : List Token} (hname : name ≠ []) : WellFormed [.catchAll name]

/-- What stands between braces is spelled back, and keeps the template well formed. -/
theorem capture_spec {name rest : List Token} {piece : Piece} {pieces : List Piece}
    (hcapture : capture name rest = some piece) (hpieces : WellFormed pieces)
    (hrest : pieces.flatMap Piece.tokens = rest) :
    WellFormed (piece :: pieces) ∧ piece.tokens = .opening :: name ++ [.closing] := by
  fun_cases capture name rest with
  | case1 => simp [capture] at hcapture
  | case2 => simp [capture] at hcapture
  | case3 name hname =>
    have hpiece : piece = .catchAll name := by simpa [capture] using hcapture.symm
    have hnil : pieces = [] := by
      cases pieces with
      | nil => rfl
      | cons first pieces => cases first <;> simp [Piece.tokens] at hrest
    subst hpiece hnil
    exact ⟨.catchAll hname, rfl⟩
  | case4 => simp [capture] at hcapture
  | case5 name rest hname =>
    have hpiece : piece = .param name := by
      simpa [capture] using hcapture.symm
    subst hpiece
    exact ⟨.param hname hpieces, rfl⟩

/-- The tokens of an unfinished name. -/
@[simp] def pending : Option (List Token) → List Token
  | none => []
  | some name => .opening :: name

/-- The pieces spell the tokens that they were read from, and are well formed. -/
theorem readPieces_spec {state : Option (List Token)} {tokens : List Token}
    {pieces : List Piece} (hplain : ∀ c, .plain c ∈ tokens → c ≠ '{' ∧ c ≠ '}')
    (hread : readPieces state tokens = some pieces) :
    WellFormed pieces ∧ pieces.flatMap Piece.tokens = pending state ++ tokens := by
  fun_induction readPieces state tokens generalizing pieces with
  | case1 =>
    obtain rfl := Option.some.inj hread
    exact ⟨.nil, rfl⟩
  | case2 rest ih => simpa using ih (fun c hc => hplain c (.tail _ hc)) hread
  | case3 => simp at hread
  | case4 token rest hopening hclosing ih =>
    obtain ⟨pieces, hrest, rfl⟩ := Option.map_eq_some_iff.mp hread
    obtain ⟨hwell, htokens⟩ := ih (fun c hc => hplain c (.tail _ hc)) hrest
    refine ⟨?_, by simpa [Piece.tokens] using htokens⟩
    cases token with
    | plain c => exact .plain (hplain c (.head _)) hwell
    | escapedOpening => exact .escapedOpening hwell
    | escapedClosing => exact .escapedClosing hwell
    | opening => exact absurd rfl hopening
    | closing => exact absurd rfl hclosing
  | case5 => simp at hread
  | case6 name rest piece pieces' hpieces hcapture ih =>
    obtain rfl := Option.some.inj hread
    obtain ⟨hwell, htokens⟩ := ih (fun c hc => hplain c (.tail _ hc)) hpieces
    obtain ⟨hpiece, hspelled⟩ := capture_spec hcapture hwell htokens
    exact ⟨hpiece, by simp [hspelled, htokens]⟩
  | case7 => simp at hread
  | case8 name token rest _ ih =>
    simpa using ih (fun c hc => hplain c (.tail _ hc)) hread

/-- A template is well formed and spells the text that it was read from. -/
theorem read_spec {path : List Char} {pieces : List Piece} (h : read path = some pieces) :
    WellFormed pieces ∧ text pieces = path := by
  obtain ⟨hwell, htokens⟩ := readPieces_spec (fun c => ne_brace_of_mem_tokenize) h
  exact ⟨hwell, by rw [text, htokens, pending, List.nil_append, flatMap_text_tokenize]⟩

/-- The characters of a name. -/
def spell (name : List Token) : List Char := name.map Token.char

/-- The names that a template captures, in order. -/
def names : List Piece → List (List Char)
  | [] => []
  | .literal _ :: pieces => names pieces
  | .param name :: pieces => spell name :: names pieces
  | .catchAll name :: pieces => spell name :: names pieces

/-- How a path matches a template, with the captured segments. -/
inductive Matches : List Piece → List Char → List (List Char × List Char) → Prop
  | nil : Matches [] [] []
  | literal {token : Token} {pieces : List Piece} {path : List Char}
    {params : List (List Char × List Char)} :
    Matches pieces path params → Matches (.literal token :: pieces) (token.char :: path) params
  | param {name : List Token} {pieces : List Piece} {segment path : List Char}
    {params : List (List Char × List Char)} (hnonempty : segment ≠ []) (hslash : '/' ∉ segment) :
    Matches pieces path params →
      Matches (.param name :: pieces) (segment ++ path) ((spell name, segment) :: params)
  | catchAll {name : List Token} {path : List Char} (hnonempty : path ≠ []) :
    Matches [.catchAll name] path [(spell name, path)]

/-- What is captured goes by the names of the template. -/
theorem Matches.map_fst {pieces : List Piece} {path : List Char}
    {params : List (List Char × List Char)} (h : Matches pieces path params) :
    params.map Prod.fst = names pieces := by
  induction h with
  | nil => rfl
  | literal _ ih => exact ih
  | param _ _ _ ih => simp [names, ih]
  | catchAll => rfl

/-- What is left of the first segment of a path. -/
def leadingSegment (path : List Char) : List Char := path.takeWhile (· ≠ '/')

/-- Match a path from left to right, a parameter taking all that is left of its segment. -/
def walk : List Piece → List Char → Option (List (List Char × List Char))
  | [], [] => some []
  | .literal token :: pieces, c :: path => if token.char = c then walk pieces path else none
  | .param name :: pieces, path =>
    if leadingSegment path = [] then none
    else (walk pieces (path.drop (leadingSegment path).length)).map
      ((spell name, leadingSegment path) :: ·)
  | [.catchAll name], path => if path = [] then none else some [(spell name, path)]
  | _, _ => none

/-- What it captures is a match. -/
theorem matches_of_walk {pieces : List Piece} {path : List Char}
    {params : List (List Char × List Char)} (h : walk pieces path = some params) :
    Matches pieces path params := by
  fun_induction walk pieces path generalizing params with
  | case1 =>
    obtain rfl := Option.some.inj h
    exact .nil
  | case2 token pieces path ih => exact .literal (ih h)
  | case3 => simp at h
  | case4 => simp at h
  | case5 name pieces path hsegment ih =>
    obtain ⟨params, hparams, rfl⟩ := Option.map_eq_some_iff.mp h
    have hsplit : leadingSegment path ++ path.drop (leadingSegment path).length = path :=
      List.prefix_iff_eq_append.mp (List.takeWhile_prefix _)
    have hslash : '/' ∉ leadingSegment path := fun hc => by simpa using List.mem_takeWhile_imp hc
    have hmatches : Matches (.param name :: pieces)
        (leadingSegment path ++ path.drop (leadingSegment path).length)
        ((spell name, leadingSegment path) :: params) := .param hsegment hslash (ih hparams)
    rwa [hsplit] at hmatches
  | case6 => simp at h
  | case7 name path hpath =>
    obtain rfl := Option.some.inj h
    exact .catchAll hpath
  | case8 => simp at h

end Template
