import RouteDocs.Fault

/-!
# `RouteDocs.Yaml.Token`: the tokens of a YAML text

A YAML text is first cut into tokens. Indentation shows as the tokens that open and close
block collections; a key is marked in front, also where only the colon after it told that
it is one.
-/

set_option autoImplicit false

namespace RouteDocs.Yaml

/-- Why a text gives no value. -/
inductive Failure where
  /-- The text is not YAML, or not YAML that plain values are made of. -/
  | malformed
  /-- A scalar has a form that its kind does not have. -/
  | fault (fault : Fault)
deriving DecidableEq, Repr

/-- How a syntax error shows in a report. -/
def Failure.wording : Text := "<yaml error>"

/-- A tag as written: the handle, unless it is verbatim, and what follows. -/
structure RawTag where
  /-- `!`, `!!` or a named handle. -/
  handle : Option Text
  /-- The rest of the tag. -/
  suffix : Text
deriving DecidableEq, Repr

/-- What a directive says. -/
inductive Directive where
  /-- The version of the language. -/
  | version (major minor : Nat)
  /-- What a tag handle stands for. -/
  | handle (name replacement : Text)
  /-- Anything else, which has no effect. -/
  | other
deriving DecidableEq, Repr

/-- A token. -/
inductive Token where
  /-- The end of the text. -/
  | streamEnd
  /-- A line starting with a percent sign. -/
  | directive (d : Directive)
  /-- Three hyphens. -/
  | documentStart
  /-- Three dots. -/
  | documentEnd
  /-- A block sequence starts. -/
  | blockSequenceStart
  /-- A block mapping starts. -/
  | blockMappingStart
  /-- The innermost block collection ends. -/
  | blockEnd
  /-- An opening bracket. -/
  | flowSequenceStart
  /-- A closing bracket. -/
  | flowSequenceEnd
  /-- An opening brace. -/
  | flowMappingStart
  /-- A closing brace. -/
  | flowMappingEnd
  /-- A key comes next. -/
  | key
  /-- The value of a key comes next. -/
  | value
  /-- An element of a block sequence comes next. -/
  | blockEntry
  /-- A comma. -/
  | flowEntry
  /-- A reference to an anchor. -/
  | alias (name : Text)
  /-- A name for the node that comes next. -/
  | anchor (name : Text)
  /-- A tag for the node that comes next. -/
  | tag (tag : RawTag)
  /-- A scalar; a plain one has no quotes and no block indicator. -/
  | scalar (text : Text) (plain : Bool)
deriving DecidableEq, Repr

end RouteDocs.Yaml
