import ByteTaper.Library.Separated
import ByteTaper.Policy.RoutePolicy

/-! # Request targets and field selections

How a request selects fields: the target is cut at the question mark, the query into parameters, and
the value of the first `fields` parameter into names. Every buffer cuts off what does not fit. The
route's field filter then removes names from the selection.

A selection is compiled into its paths, and a path of the response is matched against them: it may be
selected itself, and it may lie above a selected path. -/

namespace ByteTaper.FieldSelection

open Policy

def kRawPathBufferSize : Nat := 1024
def kRawQueryBufferSize : Nat := 1024

/-- What a buffer of `capacity` bytes holds of a text, its last byte being the terminator. -/
def boundedCopy (capacity : Nat) (source : Text) : Text := source.take (capacity - 1)

def boundedName (source : Text) : FieldName :=
  ⟨boundedCopy kMaxFieldNameLen source, by
    simp only [boundedCopy, List.length_take, kMaxFieldNameLen]; omega⟩

/-! ## The query -/

structure QueryParamView where
  key : Text
  /-- `none` if the parameter has no equals sign. -/
  value : Option Text

def paramView (segment : Text) : QueryParamView where
  key := segment.takeWhile (· != '=')
  value := match segment.dropWhile (· != '=') with
    | [] => none
    | _ :: value => some value

/-- The parameters that are not empty, at most 32. -/
def parseQueryView (rawQuery : Text) : List QueryParamView :=
  (((rawQuery.splitOn '&').filter (!·.isEmpty)).take 32).map paramView

def queryKeyIsFields (key : Text) : Bool := key == lit "fields"

/-- The names between commas that are not empty, at most `kMaxFields`. -/
def parseFieldsValue (value : Text) : List FieldName :=
  (((value.splitOn ',').filter (!·.isEmpty)).take kMaxFields).map boundedName

/-- Only the first `fields` parameter counts. -/
def parseFieldsQueryParameter : List QueryParamView → List FieldName
  | [] => []
  | param :: rest =>
    if queryKeyIsFields param.key then (param.value.map parseFieldsValue).getD []
    else parseFieldsQueryParameter rest

/-! ## The context of a request -/

structure ApgTransformContext where
  rawPath : Text := []
  rawQuery : Text := []
  clientQueryPresent : Bool := false
  selectedFields : List FieldName := []

/-- The target is cut at its first question mark. -/
def extractRawPathAndQuery (requestTarget : Text) (context : ApgTransformContext) :
    ApgTransformContext :=
  { context with
    rawPath := boundedCopy kRawPathBufferSize (requestTarget.takeWhile (· != '?'))
    rawQuery := boundedCopy kRawQueryBufferSize ((requestTarget.dropWhile (· != '?')).drop 1) }

variable (context : ApgTransformContext)

def parseAndStoreSelectedFields : ApgTransformContext :=
  let view := parseQueryView context.rawQuery
  { context with
    clientQueryPresent := view.any fun param => queryKeyIsFields param.key
    selectedFields := parseFieldsQueryParameter view }

def enforceSelectedFieldsPolicy (filter : FieldFilterPolicy) : ApgTransformContext :=
  { context with
    selectedFields := context.selectedFields.filter fun name => applyFieldFilter filter name.val }

/-! ## Compiled selections -/

/-- The selected path goes on behind `fullPath`, with a member or with elements. -/
def startsWithPathPrefix : Text → Text → Bool
  | [], c :: _ => c = '.' || c = '['
  | a :: fullPath, b :: selected => a = b && startsWithPathPrefix fullPath selected
  | _, [] => false

def fieldHash (s : Text) : UInt32 :=
  s.foldl (fun h c => ((h <<< 5) + h) + c.toNat.toUInt32) 5381

structure CompiledPath where
  path : Text
  hash : UInt32
  len : Nat

def compilePath (name : FieldName) : CompiledPath where
  path := name.val
  hash := fieldHash name.val
  len := name.val.length

structure CompiledFieldSelection where
  exactPaths : List CompiledPath
  descendantPaths : List CompiledPath

def compileFieldSelection : CompiledFieldSelection :=
  let paths := ((context.selectedFields.take kMaxFields).filter (!·.val.isEmpty)).map compilePath
  { exactPaths := paths, descendantPaths := paths }

structure SelectionMatchResult where
  exactSelected : Bool := false
  hasSelectedDescendant : Bool := false

def matchSelectionCompiled (sel : CompiledFieldSelection) (fullPath : Text) :
    SelectionMatchResult :=
  if fullPath.isEmpty then {}
  else
    { exactSelected := sel.exactPaths.any fun p =>
        p.hash == fieldHash fullPath && p.len == fullPath.length && p.path == fullPath
      hasSelectedDescendant := sel.descendantPaths.any fun p =>
        p.len > fullPath.length && startsWithPathPrefix fullPath p.path }

/-- Brackets other than `[]` are not supported. -/
def unsupportedArrayNotation : Text → Bool
  | [] => false
  | '[' :: ']' :: rest => unsupportedArrayNotation rest
  | '[' :: _ => true
  | ']' :: _ => true
  | _ :: rest => unsupportedArrayNotation rest

def selectionContainsUnsupportedArrayNotation : Bool :=
  (context.selectedFields.take kMaxFields).any fun name => unsupportedArrayNotation name.val

end ByteTaper.FieldSelection
