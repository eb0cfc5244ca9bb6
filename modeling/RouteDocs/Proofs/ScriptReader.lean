import RouteDocs.Proofs.Numeral
import RouteDocs.Proofs.QuotedText
import RouteDocs.Proofs.Words

/-!
# `RouteDocs.Proofs.ScriptReader`: the literals of a script

A Python script is a sequence of statements. Each ends with its line, but a line that ends between
brackets goes on. `tokens?` cuts a script into tokens by these rules, and `evaluate?` gives the
value of tokens that are a literal: a constant, a number, a string, or a list or mapping of
literals. `literal?` does both for what a script assigns to a name.

The reader knows as much of the language as a sample call uses. It reads nothing where something
else comes up, like a number with a point, a prefix of a string or an operator. It sets no limit on
how long a number is or how deeply brackets are nested.

A part of a script is read in the same way whatever follows it. `Lexes` says this of its characters,
and `Reads` of its tokens.
-/

set_option autoImplicit false

namespace RouteDocs.Script

open Text

/-! ### Tokens -/

/-- Brackets, and marks between names and literals. -/
inductive Mark where
  /-- A round bracket that opens. -/
  | openRound
  /-- A round bracket that closes. -/
  | closeRound
  /-- A square bracket that opens. -/
  | openSquare
  /-- A square bracket that closes. -/
  | closeSquare
  /-- A curly bracket that opens. -/
  | openCurly
  /-- A curly bracket that closes. -/
  | closeCurly
  /-- A comma. -/
  | comma
  /-- A colon. -/
  | colon
  /-- An equals sign. -/
  | equals
  /-- A minus. -/
  | minus
deriving DecidableEq, Repr

/-- The character of each mark. -/
def marks : List (CodePoint × Mark) :=
  [('(', .openRound), (')', .closeRound), ('[', .openSquare), (']', .closeSquare),
    ('\x7b', .openCurly), ('\x7d', .closeCurly), (',', .comma), (':', .colon), ('=', .equals),
    ('-', .minus)]

/-- How many brackets are open behind a mark. There may be none to close. -/
def Mark.depth? : Mark → Nat → Option Nat
  | .openRound, depth | .openSquare, depth | .openCurly, depth => some (depth + 1)
  | .closeRound, depth | .closeSquare, depth | .closeCurly, depth =>
    if depth = 0 then none else some (depth - 1)
  | _, depth => some depth

/-- The parts of a script. -/
inductive Token where
  /-- A name, or names with points between them. -/
  | name (s : Text)
  /-- A whole number. -/
  | int (n : Nat)
  /-- A string. -/
  | str (s : Text)
  /-- A mark. -/
  | mark (m : Mark)
  /-- The end of a statement. -/
  | newline
deriving DecidableEq, Repr

/-- What the characters in front belong to. -/
inductive Mode where
  /-- Nothing: a statement may begin. -/
  | lineStart
  /-- A mark or space. -/
  | between
  /-- A string that has ended. -/
  | closed
  /-- A name or a number. -/
  | word (s : Text)
  /-- A string. -/
  | text (s : Text)
  /-- A string, with a backslash at the end. -/
  | escape (s : Text)
  /-- A string, with an escape of four digits that has these so far. -/
  | unit (s digits : Text)
deriving DecidableEq

/-- A character of a name or a number. -/
def isNamePart (c : CodePoint) : Bool := c.isAlphanum || c = '_' || c = '.'

/-- The token of a word. Zeros may not stand in front of a number. -/
def wordToken? : Text → Option Token
  | [] => none
  | c :: cs =>
    if (c :: cs).all CodePoint.isDigit then
      if c = '0' ∧ cs ≠ [] then none else some (.int (ofDecimals (digitValues (c :: cs))))
    else if c.isDigit || c = '.' then none
    else some (.name (c :: cs))

/-- What a letter behind a backslash stands for. -/
def escapes : List (CodePoint × CodePoint) :=
  [('"', '"'), ('\'', '\''), ('\\', '\\'), ('n', '\n'), ('r', '\r'), ('t', '\t'),
    ('a', .ofNat 0x7), ('b', .ofNat 0x8), ('v', .ofNat 0xb), ('f', .ofNat 0xc)]

/-- What a character does that belongs to nothing in front of it: the tokens that end with it, and
how the next one is read. -/
def begin? (depth : Nat) (c : CodePoint) : Option (List Token × Mode × Nat) :=
  if c = '\n' ∨ c = '\r' then
    -- A line goes on as long as brackets are open.
    some (if depth = 0 then ([.newline], .lineStart, 0) else ([], .between, depth))
  else if c = ' ' ∨ c = '\t' then some ([], .between, depth)
  else if isNamePart c then some ([], .word [c], depth)
  else if c = '"' then some ([], .text [], depth)
  else (Entries.get? c marks).bind fun m =>
    (m.depth? depth).map fun next => ([.mark m], .between, next)

/-- What a character does. -/
def emit? : Mode → Nat → CodePoint → Option (List Token × Mode × Nat)
  -- Statements are not indented.
  | .lineStart, depth, c => if c = ' ' ∨ c = '\t' then none else begin? depth c
  | .between, depth, c => begin? depth c
  | .closed, depth, c => if isNamePart c ∨ c = '"' then none else begin? depth c
  | .word s, depth, c =>
    if isNamePart c then some ([], .word (s ++ [c]), depth)
    else if c = '"' then none
    else (wordToken? s).bind fun t => (begin? depth c).map fun r => (t :: r.1, r.2)
  | .text s, depth, c =>
    if c = '"' then some ([.str s], .closed, depth)
    else if c = '\\' then some ([], .escape s, depth)
    else if 0x20 ≤ c.toNat && c.toNat < 0x7f then some ([], .text (s ++ [c]), depth)
    else none
  | .escape s, depth, c =>
    if c = 'u' then some ([], .unit s [], depth)
    else (Entries.get? c escapes).map fun e => ([], .text (s ++ [e]), depth)
  | .unit s digits, depth, c =>
    if digits.length < 3 then some ([], .unit s (digits ++ [c]), depth)
    else (ofHex? (digits ++ [c])).map fun n => ([], .text (s ++ [.ofNat n]), depth)

/-- The token that the end of a script ends. -/
def finish? : Mode → Option (List Token)
  | .lineStart | .between | .closed => some []
  | .word s => (wordToken? s).map ([·])
  | _ => none

/-- Cuts the rest of a script into tokens. -/
def tokensFrom? : Mode → (depth : Nat) → Text → Option (List Token)
  | mode, depth, [] => if depth = 0 then finish? mode else none
  | mode, depth, c :: cs =>
    (emit? mode depth c).bind fun r => (tokensFrom? r.2.1 r.2.2 cs).map (r.1 ++ ·)

/-- The tokens of a script. -/
def tokens? (source : Text) : Option (List Token) := tokensFrom? .lineStart 0 source

/-! ### Values -/

/-- What the next token is inside of. -/
inductive Context where
  /-- A list that has these items so far. -/
  | list (items : List Value)
  /-- A mapping that has these entries so far. -/
  | dict (fields : List (Text × Value))
  /-- A mapping, behind a key and its colon. -/
  | field (fields : List (Text × Value)) (key : Text)

/-- What stands right in front of the next token. -/
inductive Place where
  /-- Nothing that it follows on. -/
  | ready
  /-- A minus. -/
  | negative
  /-- A literal. -/
  | read (v : Value)

/-- The value of a name, if it is a constant. -/
def constant? (s : Text) : Option Value :=
  if s = "None" then some .null
  else if s = "True" then some (.bool true)
  else if s = "False" then some (.bool false)
  else none

/-- Reads a token. -/
def step? : Place → List Context → Token → Option (Place × List Context)
  | .ready, contexts, .name s => (constant? s).map fun v => (.read v, contexts)
  | .ready, contexts, .int n => some (.read (.int n), contexts)
  | .ready, contexts, .str s => some (.read (.str s), contexts)
  | .ready, contexts, .mark .minus => some (.negative, contexts)
  | .negative, contexts, .int n => some (.read (.int (-n)), contexts)
  | .ready, contexts, .mark .openSquare => some (.ready, .list [] :: contexts)
  | .ready, contexts, .mark .openCurly => some (.ready, .dict [] :: contexts)
  -- There may be nothing between brackets, or between a comma and the closing bracket.
  | .ready, .list items :: contexts, .mark .closeSquare => some (.read (.list items), contexts)
  | .ready, .dict fields :: contexts, .mark .closeCurly => some (.read (.ofFields fields), contexts)
  | .read v, .list items :: contexts, .mark .comma =>
    some (.ready, .list (items ++ [v]) :: contexts)
  | .read v, .list items :: contexts, .mark .closeSquare =>
    some (.read (.list (items ++ [v])), contexts)
  | .read (.str key), .dict fields :: contexts, .mark .colon =>
    some (.ready, .field fields key :: contexts)
  | .read v, .field fields key :: contexts, .mark .comma =>
    some (.ready, .dict (Entries.insert key v fields) :: contexts)
  | .read v, .field fields key :: contexts, .mark .closeCurly =>
    some (.read (.ofFields (Entries.insert key v fields)), contexts)
  | _, _, _ => none

/-- The value of a literal from one of its tokens on. -/
def readFrom? : Place → List Context → List Token → Option Value
  | .read v, [], [] => some v
  | _, _, [] => none
  | place, contexts, t :: ts => (step? place contexts t).bind fun r => readFrom? r.1 r.2 ts

/-- The value of tokens, if they are a literal. -/
def evaluate? (ts : List Token) : Option Value := readFrom? .ready [] ts

/-- What a statement assigns to a name. -/
def assigned? (name : Text) : List Token → Option (List Token)
  | .name s :: .mark .equals :: ts => if s = name then some ts else none
  | _ => none

/-- The statements of a script. -/
def statements? (source : Text) : Option (List (List Token)) :=
  (tokens? source).map (splitWhere (· = .newline))

/-- The value that a script assigns to a name, if it is a literal. -/
def literal? (name source : Text) : Option Value :=
  (statements? source).bind fun ss => (ss.findSome? (assigned? name)).bind evaluate?

example : literal? "x" "import y\nx = [1, -2,\n  \x7b\"a\": None\x7d]\nf(x, \"b\")\n"
    = some (.list [.int 1, .int (-2), .ofFields [("a", .null)]]) := by decide

/-! ### How characters become tokens -/

variable {s t u rest : Text} {ts us : List Token} {token : Token} {mode : Mode} {depth : Nat}

/-- A text whose first character ends a name, a number or a string in front of it. -/
def Apart (rest : Text) : Prop :=
  ∃ c cs, rest = c :: cs ∧ isNamePart c = false ∧ c ≠ '"'

/-- What the characters of a part do, one after the other. -/
def run? : Mode → (depth : Nat) → Text → Option (List Token × Mode × Nat)
  | mode, depth, [] => some ([], mode, depth)
  | mode, depth, c :: cs =>
    (emit? mode depth c).bind fun r => (run? r.2.1 r.2.2 cs).map fun q => (r.1 ++ q.1, q.2)

/-- The first character, and the others in the mode that it leaves. -/
theorem tokensFrom?_cons (mode : Mode) (depth : Nat) (c : CodePoint) (cs : Text) :
    tokensFrom? mode depth (c :: cs)
      = (emit? mode depth c).bind fun r => (tokensFrom? r.2.1 r.2.2 cs).map (r.1 ++ ·) := rfl

/-- The tokens that end in a part come in front of the ones of the rest. -/
theorem tokensFrom?_of_run? {next : Mode} {inner : Nat}
    (h : run? mode depth s = some (ts, next, inner)) (rest : Text) :
    tokensFrom? mode depth (s ++ rest) = (tokensFrom? next inner rest).map (ts ++ ·) := by
  induction s generalizing mode depth ts with
  | nil =>
      rw [run?, Option.some_inj, Prod.mk.injEq, Prod.mk.injEq] at h
      obtain ⟨rfl, rfl, rfl⟩ := h
      exact Option.map_id'.symm
  | cons c s ih =>
      rw [run?, Option.bind_eq_some_iff] at h
      obtain ⟨r, hemit, h⟩ := h
      obtain ⟨⟨us, _, _⟩, hrun, hq⟩ := Option.map_eq_some_iff.mp h
      rw [Prod.mk.injEq, Prod.mk.injEq] at hq
      obtain ⟨rfl, rfl, rfl⟩ := hq
      rw [List.cons_append, tokensFrom?_cons, hemit, Option.bind_some, ih hrun, Option.map_map]
      simp [Function.comp_def]

/-- A character that ends no token. -/
theorem tokensFrom?_of_emit? {c : CodePoint} {next : Mode} {inner : Nat}
    (h : emit? mode depth c = some ([], next, inner)) (rest : Text) :
    tokensFrom? mode depth (c :: rest) = tokensFrom? next inner rest := by
  rw [tokensFrom?_cons, h, Option.bind_some]
  exact Option.map_id'

/-- A character that ends a token. -/
theorem tokensFrom?_of_emit?_token {c : CodePoint} {next : Mode} {inner : Nat}
    (h : emit? mode depth c = some ([token], next, inner)) (rest : Text) :
    tokensFrom? mode depth (c :: rest) = (tokensFrom? next inner rest).map (token :: ·) := by
  rw [tokensFrom?_cons, h, Option.bind_some]
  rfl

/-- Behind a string or a bracket nothing is left over, if what follows stands apart. -/
theorem tokensFrom?_closed (h : Apart rest) :
    tokensFrom? .closed depth rest = tokensFrom? .between depth rest := by
  obtain ⟨c, cs, rfl, hname, hquote⟩ := h
  have hnot : ¬ (isNamePart c = true ∨ c = .char '"') := by simp [hname, hquote]
  rw [tokensFrom?_cons, tokensFrom?_cons, emit?, emit?, if_neg hnot]

/-- A word ends where what follows stands apart from it. -/
theorem tokensFrom?_word (h : Apart rest) (hs : wordToken? s = some token) :
    tokensFrom? (.word s) depth rest = (tokensFrom? .between depth rest).map (token :: ·) := by
  obtain ⟨c, cs, rfl, hname, hquote⟩ := h
  rw [tokensFrom?_cons, tokensFrom?_cons, emit?, emit?, if_neg (by simp [hname]), if_neg hquote, hs]
  cases begin? depth c with
  | none => rfl
  | some r =>
      simp only [Option.bind_some, Option.map_some, Option.map_map]
      rfl

/-- The characters of names go on with a word. -/
theorem tokensFrom?_names (hu : ∀ c ∈ u, isNamePart c = true) :
    tokensFrom? (.word s) depth (u ++ rest) = tokensFrom? (.word (s ++ u)) depth rest := by
  induction u generalizing s with
  | nil => rw [List.nil_append, List.append_nil]
  | cons c u ih =>
      rw [List.forall_mem_cons] at hu
      have hemit : emit? (.word s) depth c = some ([], .word (s ++ [c]), depth) := by
        rw [emit?, if_pos hu.1]
      rw [List.cons_append, tokensFrom?_of_emit? hemit, ih hu.2, List.append_assoc,
        List.singleton_append]

/-- A text that is these tokens, whatever follows it. -/
structure Lexes (t : Text) (ts : List Token) : Prop where
  /-- The tokens come in front of the ones of the rest. -/
  run : ∀ depth rest, Apart rest →
    tokensFrom? .between depth (t ++ rest) = (tokensFrom? .between depth rest).map (ts ++ ·)
  /-- No statement ends inside. -/
  line : .newline ∉ ts

/-- A name or a number. -/
theorem lexes_word {c : CodePoint} {cs : Text} (hword : ∀ d ∈ c :: cs, isNamePart d = true)
    (htoken : wordToken? (c :: cs) = some token) (hline : token ≠ .newline) :
    Lexes (c :: cs) [token] where
  run := by
    intro depth rest hrest
    rw [List.forall_mem_cons] at hword
    have hemit : emit? .between depth c = some ([], .word [c], depth) := by
      -- A character of a name is neither the end of a line nor space.
      have hspace : ∀ b, isNamePart b = false → c ≠ b := by
        rintro b hb rfl
        rw [hword.1] at hb
        cases hb
      rw [emit?, begin?, if_neg (not_or.mpr ⟨hspace _ rfl, hspace _ rfl⟩),
        if_neg (not_or.mpr ⟨hspace _ rfl, hspace _ rfl⟩), if_pos hword.1]
    rw [List.cons_append, tokensFrom?_of_emit? hemit, tokensFrom?_names hword.2]
    exact tokensFrom?_word hrest htoken
  line := by simpa using hline.symm

/-! ### How tokens become values -/

/-- Tokens that are read as a literal with this value, wherever they stand. Without a value they
are not read. -/
def Reads (ts : List Token) (value? : Option Value) : Prop :=
  ∀ contexts rest, readFrom? .ready contexts (ts ++ rest)
    = value?.bind fun v => readFrom? (.read v) contexts rest

/-- Tokens that are read as a value, wherever they stand, have this value by themselves. -/
theorem Reads.evaluate? {value? : Option Value} (h : Reads ts value?) :
    evaluate? ts = value? := by
  have hall := h [] []
  rw [List.append_nil] at hall
  rw [Script.evaluate?, hall]
  cases value? <;> rfl

end RouteDocs.Script
