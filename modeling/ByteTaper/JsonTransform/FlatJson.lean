import ByteTaper.JsonTransform.Scanner
import ByteTaper.Policy.RoutePolicy

/-! # Flat objects

`parse_flat_json_object`: an object whose values are all scalars is read into its fields. The first
`kMaxFields` fields are kept, each with its key as far as the key buffer holds it. A value that is an
object or an array ends the reading with `SkipUnsupported`. -/

namespace ByteTaper.JsonTransform

open Policy

inductive JsonResponseKind where
  | eligibleJson | skipUnsupported | invalidInput
deriving DecidableEq

inductive FlatJsonParseStatus where
  | ok | skipUnsupported | invalidInput | invalidJson
deriving DecidableEq

/-- A field: its key, and the text of its value. -/
structure FlatJsonFieldView where
  key : Text
  value : Text

structure ParsedFlatJsonObject where
  /-- Whether `source` points to the body. -/
  hasSource : Bool := false
  fields : List FlatJsonFieldView := []

/-- The text from `start` up to `rest`, which is what is left of it. -/
def slice (start rest : Text) : Text := start.take (start.length - rest.length)

/-- A token that must be there. -/
def validToken (token : Option Text) : Except FlatJsonParseStatus Text :=
  match token with
  | some rest => .ok rest
  | none => .error .invalidJson

def parseValueToken : Text → Except FlatJsonParseStatus Text
  | [] => .error .invalidJson
  | c :: rest =>
    if c = '\x7b' || c = '[' then .error .skipUnsupported
    else if c = '"' then validToken ((parseJsonStringToken (c :: rest)).map (·.2))
    else if c = 't' then validToken (parseLiteralToken (lit "true") (c :: rest))
    else if c = 'f' then validToken (parseLiteralToken (lit "false") (c :: rest))
    else if c = 'n' then validToken (parseLiteralToken (lit "null") (c :: rest))
    else if c = '-' || isDigit c then validToken (parseNumberToken (c :: rest))
    else .error .invalidJson

/-- The end of the body, behind the closing brace. -/
def parseEnd (rest : Text) : FlatJsonParseStatus :=
  if skipWhitespace rest = [] then .ok else .invalidJson

/-- A field is kept as long as there is room for it. -/
def addField (fields : List FlatJsonFieldView) (field : FlatJsonFieldView) :
    List FlatJsonFieldView :=
  if fields.length < kMaxFields then fields ++ [field] else fields

/-- The loop of `parse_flat_json_object`. -/
def parseFlatMembers : Nat → List FlatJsonFieldView → Text →
    FlatJsonParseStatus × List FlatJsonFieldView
  | 0, fields, _ => (.invalidJson, fields)
  | fuel + 1, fields, t =>
    match parseJsonStringToken t with
    | none => (.invalidJson, fields)
    | some key =>
      match skipColon key.2 with
      | none => (.invalidJson, fields)
      | some start =>
        match parseValueToken start with
        | .error status => (status, fields)
        | .ok rest =>
          let fields := addField fields
            { key := keyBuffer kMaxFieldNameLen key.1, value := slice start rest }
          match skipWhitespace rest with
          | ',' :: t => parseFlatMembers fuel fields (skipWhitespace t)
          | '\x7d' :: t => (parseEnd t, fields)
          | _ => (.invalidJson, fields)

/-- The body ends at its first NUL. -/
def cString (t : Text) : Text := t.takeWhile (· != '\x00')

def parseFlatJsonObject (body : Text) (kind : JsonResponseKind) :
    FlatJsonParseStatus × ParsedFlatJsonObject :=
  if kind ≠ .eligibleJson then (.skipUnsupported, {})
  else
    let text := cString body
    match skipWhitespace text with
    | [] => (.invalidJson, { hasSource := true })
    | '[' :: _ => (.skipUnsupported, { hasSource := true })
    | '\x7b' :: rest =>
      match skipWhitespace rest with
      | '\x7d' :: t => (parseEnd t, { hasSource := true })
      | t =>
        let result := parseFlatMembers (t.length + 1) [] t
        (result.1, { hasSource := true, fields := result.2 })
    | _ => (.invalidJson, { hasSource := true })

end ByteTaper.JsonTransform
