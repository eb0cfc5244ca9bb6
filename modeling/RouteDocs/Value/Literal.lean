import RouteDocs.Fault
import RouteDocs.Value.Basic

/-!
# `RouteDocs.Value.Literal`: values as text

`display` is the text of a value where a text is wanted: a type name read from a block,
a path segment, a value that JSON cannot hold. `literal` is the value as a message shows
it, with quotes around texts. Inside lists and mappings `display` shows literals too. A
value that contains itself shows dots where it comes round.

A whole number with too many digits has no text, and neither has a value with one inside.
Showing a value goes one step deeper for every value inside another, and there is no text of
a value that is nested too deeply.
-/

set_option autoImplicit false

namespace RouteDocs

open Text Number

/-- Texts with commas between them. -/
def commaList (parts : List Text) : Text := (", " : Text).intercalate parts

/-- An offset from universal time as a literal: days, seconds and microseconds, those that
there are. -/
def Offset.literal (o : Offset) : Text :=
  if o.microseconds = 0 then "datetime.timezone.utc"
  else
    -- A negative offset counts forward from the day before.
    let days : List Text := if o.microseconds < 0 then ["days=-1"] else []
    let rest := (o.microseconds % 86400000000).toNat
    let seconds : List Text :=
      if rest / 1000000 = 0 then [] else ["seconds=" ++ natText (rest / 1000000)]
    let micros : List Text :=
      if rest % 1000000 = 0 then [] else ["microseconds=" ++ natText (rest % 1000000)]
    "datetime.timezone(datetime.timedelta(" ++ commaList (days ++ seconds ++ micros) ++ "))"

/-- A moment as a literal: its fields, the seconds and smaller only as far as needed. -/
def Moment.literal (m : Moment) : Text :=
  let fields := [m.date.year, m.date.month, m.date.day, m.hour, m.minute].map natText
  let small :=
    if m.microsecond ≠ 0 then [natText m.second, natText m.microsecond]
    else if m.second ≠ 0 then [natText m.second]
    else []
  let zone : List Text := match m.offset with
    | none => []
    | some o => ["tzinfo=" ++ o.literal]
  "datetime.datetime(" ++ commaList (fields ++ small ++ zone) ++ ")"

/-- A date as a literal. -/
def Date.literal (d : Date) : Text :=
  "datetime.date(" ++ commaList ([d.year, d.month, d.day].map natText) ++ ")"

/-- A scalar as a message shows it. -/
def Scalar.literal : Scalar → Except Fault Text
  | .null => .ok "None"
  | .bool true => .ok "True"
  | .bool false => .ok "False"
  | .int i => match intText? i with
    | some s => .ok s
    | none => .error .badValue
  | .float x => .ok (floatText plainWords x)
  | .str s => .ok (quote s)
  | .bytes b => .ok (quoteBytes b)
  | .date d => .ok d.literal
  | .moment m => .ok m.literal

/-- A scalar where a text is wanted. -/
def Scalar.display : Scalar → Except Fault Text
  | .str s => .ok s
  | .date d => .ok d.text
  | .moment m => .ok (m.text ' ')
  | s => s.literal

/-- How a value that comes round is shown. -/
def Container.dots : Container → Text
  | .list => "[...]"
  | .pair => "(...)"
  | .map => "\x7b...\x7d"

namespace Value

/-- How deep a value may be nested that is shown. -/
def maxLiteralDepth : Nat := 980

mutual

/-- A value as a message shows it, where there is room for so many values one inside another. -/
def literalWithin : (room : Nat) → Value → Except Fault Text
  | _, .scalar s => s.literal
  | room, .list items => do return "[" ++ commaList (← literalItems room items) ++ "]"
  | 0, .pair _ _ => .error .endless
  | room + 1, .pair key value => do
    return "(" ++ (← literalWithin room key) ++ ", " ++ (← literalWithin room value) ++ ")"
  | _, .set [] => .ok "set()"
  | 0, .set (_ :: _) => .error .endless
  | _ + 1, .set (m :: ms) => do
    return "\x7b" ++ commaList (← (m :: ms).mapM Scalar.literal) ++ "\x7d"
  | room, .map entries => do return "\x7b" ++ commaList (← literalEntries room entries) ++ "\x7d"
  | _, .loop container => .ok container.dots

/-- The literals of list elements. -/
def literalItems : (room : Nat) → List Value → Except Fault (List Text)
  | _, [] => .ok []
  | 0, _ :: _ => .error .endless
  | room + 1, v :: vs => do
    return (← literalWithin room v) :: (← literalItems (room + 1) vs)

/-- The literals of mapping entries. -/
def literalEntries : (room : Nat) → List (Scalar × Value) → Except Fault (List Text)
  | _, [] => .ok []
  | 0, _ :: _ => .error .endless
  | room + 1, (k, v) :: es => do
    return ((← k.literal) ++ ": " ++ (← literalWithin room v)) :: (← literalEntries (room + 1) es)

end

/-- A value as a message shows it. -/
def literal (v : Value) : Except Fault Text := v.literalWithin maxLiteralDepth

/-- A value where a text is wanted. -/
def display : Value → Except Fault Text
  | .scalar s => s.display
  | v => v.literal

end Value

end RouteDocs
