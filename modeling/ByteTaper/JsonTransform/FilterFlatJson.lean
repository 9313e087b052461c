import ByteTaper.FieldSelection.RequestTarget
import ByteTaper.JsonTransform.FlatJson

/-! # Filtering JSON bodies

The filters of `filter_flat_json.cpp`. The body is read once, from front to back, and what is kept is
appended to the writer; a container of which nothing is left is taken back by rolling the writer back.

The selection filter and the policy filter have the same two loops, over the members of an object and
over the elements of an array. They differ in what they do with a path, and that is `FieldRules`. The
keys that paths are made of are those that the scanner writes: escapes are not decoded, and a key is
cut off at `kMaxFieldNameLen - 1` bytes. -/

namespace ByteTaper.JsonTransform

open FieldSelection Policy

inductive FlatJsonFilterStatus where
  | ok | skipUnsupported | invalidInput | outputTooSmall | invalidJsonSafeError | timeout

def kMaxSelectionPathLen : Nat := 512

structure FieldCountMetrics where
  encountered : Nat := 0
  emitted : Nat := 0

/-- `assign_removed_field_count`. -/
def FieldCountMetrics.removed (metrics : FieldCountMetrics) : Nat :=
  metrics.encountered - metrics.emitted

/-- What is left of the body, what has been written, and the counts. -/
structure FilterState where
  rest : Text
  writer : Text := []
  metrics : FieldCountMetrics := {}

/-! ## Paths -/

/-- The path if it fits its buffer. -/
def boundedPath (path : Text) : Option Text :=
  if path.length < kMaxSelectionPathLen then some path else none

def buildFullPath (parent key : Text) : Option Text :=
  if key.isEmpty then none
  else boundedPath (if parent.isEmpty then key else parent ++ '.' :: key)

def buildArrayElementPath (arrayPath : Text) : Option Text := boundedPath (arrayPath ++ ['[', ']'])

/-! ## Rules -/

inductive Verdict where
  | skip | copy | enter
deriving DecidableEq

/-- What a filter does with a value, by the kind of the value and by its path. -/
structure FieldRules where
  object : Text → Verdict
  /-- By the path of the array and that of its elements: `none` skips it, and `some keepEmpty` enters
      it and tells whether it stays when no element does. -/
  array : Text → Text → Option Bool
  scalar : Text → Bool
  elementObject : Text → Verdict
  elementOther : Text → Bool

/-- `write_filtered_object` and `filter_nested_array_value`. -/
def selectionRules (sel : CompiledFieldSelection) : FieldRules where
  object path :=
    let hit := matchSelectionCompiled sel path
    if hit.exactSelected then .copy
    else if hit.hasSelectedDescendant then .enter
    else .skip
  array path elementPath :=
    let hit := matchSelectionCompiled sel path
    let elementHit := matchSelectionCompiled sel elementPath
    if hit.exactSelected || elementHit.exactSelected || elementHit.hasSelectedDescendant then
      some hit.exactSelected
    else none
  scalar path := (matchSelectionCompiled sel path).exactSelected
  elementObject elementPath :=
    let hit := matchSelectionCompiled sel elementPath
    if hit.exactSelected && !hit.hasSelectedDescendant then .copy
    else if hit.hasSelectedDescendant then .enter
    else .skip
  elementOther _ := false

/-- `write_filtered_object_denylist` and `filter_nested_array_value_denylist`. -/
def policyRules (filter : FieldFilterPolicy) : FieldRules where
  object path := if applyFieldFilter filter path then .enter else .skip
  array path _ := if applyFieldFilter filter path then some false else none
  scalar path := applyFieldFilter filter path
  elementObject elementPath := if applyFieldFilter filter elementPath then .enter else .skip
  elementOther elementPath := applyFieldFilter filter elementPath

/-! ## The loops -/

section

variable (st : FilterState)

/-- Read a value without writing it; `members` counts what was met in it. -/
def FilterState.skipValue : Option (FilterState × Nat) :=
  (consumeJsonValueAny (2 * st.rest.length + 2) st.rest).map fun r =>
    ({ st with rest := r.1, metrics.encountered := st.metrics.encountered + r.2 }, r.2)

/-- The same for values other than arrays. -/
def FilterState.skipValueObjectOnly : Option (FilterState × Nat) :=
  (consumeJsonValueObjectOnly (2 * st.rest.length + 2) st.rest).map fun r =>
    ({ st with rest := r.1, metrics.encountered := st.metrics.encountered + r.2 }, r.2)

def FilterState.write (t : Text) : FilterState :=
  { st with writer := st.writer ++ t }

def FilterState.emit (n : Nat) : FilterState :=
  { st with metrics.emitted := st.metrics.emitted + n }

end

/-- The comma in front of all but the first entry that is written. -/
def lead (first : Bool) : Text := if first then [] else [',']

/-- The key of a member in front of its value. -/
def memberLead (first : Bool) (keyToken : Text) : Text := lead first ++ keyToken ++ [':']

variable (rules : FieldRules)

mutual

/-- The number is that of the members that were written. -/
def filterObject : Nat → Text → FilterState → Option (FilterState × Nat)
  | 0, _, _ => none
  | fuel + 1, parent, st =>
    match st.rest with
    | '\x7b' :: rest =>
      match skipWhitespace rest with
      | '\x7d' :: t => some ({ st with rest := t }.write ['\x7b', '\x7d'], 0)
      | t => filterMembers fuel parent true 0 ({ st with rest := t }.write ['\x7b'])
    | _ => none

/-- The loop over the members. -/
def filterMembers : Nat → Text → Bool → Nat → FilterState → Option (FilterState × Nat)
  | 0, _, _, _, _ => none
  | fuel + 1, parent, first, emitted, st => do
      let key ← parseJsonStringToken st.rest
      let rest ← skipColon key.2
      let member ← filterMember fuel (buildFullPath parent (keyBuffer kMaxFieldNameLen key.1))
        (memberLead first (slice st.rest key.2))
        { st with rest, metrics.encountered := st.metrics.encountered + 1 }
      let first := first && !member.2
      let emitted := if member.2 then emitted + 1 else emitted
      match skipWhitespace member.1.rest with
      | ',' :: t =>
        filterMembers fuel parent first emitted { member.1 with rest := skipWhitespace t }
      | '\x7d' :: t => some ({ member.1 with rest := t }.write ['\x7d'], emitted)
      | _ => none

/-- The value of a member, and whether the member is kept. -/
def filterMember : Nat → Option Text → Text → FilterState → Option (FilterState × Bool)
  | 0, _, _, _ => none
  | _ + 1, none, _, st => st.skipValueObjectOnly.map fun r => (r.1, false)
  | fuel + 1, some path, keyLead, st =>
    match st.rest with
    | '\x7b' :: _ =>
      match rules.object path with
      | .skip => st.skipValue.map fun r => (r.1, false)
      | .copy => st.skipValue.map fun r =>
        ((r.1.write (keyLead ++ slice st.rest r.1.rest)).emit (r.2 + 1), true)
      | .enter => (filterObject fuel path (st.write keyLead)).map fun r =>
        if r.2 = 0 then ({ r.1 with writer := st.writer }, false) else (r.1.emit 1, true)
    | '[' :: _ =>
      match buildArrayElementPath path with
      | none => st.skipValue.map fun r => (r.1, false)
      | some elementPath =>
        match rules.array path elementPath with
        | none => st.skipValue.map fun r => (r.1, false)
        | some keepEmpty => (filterArray fuel path (st.write keyLead)).map fun r =>
          if keepEmpty || r.2 > 0 then (r.1.emit 1, true)
          else ({ r.1 with writer := st.writer }, false)
    | _ => st.skipValueObjectOnly.map fun r =>
      if rules.scalar path then
        ((r.1.write (keyLead ++ slice st.rest r.1.rest)).emit 1, true)
      else (r.1, false)

/-- The number is that of the elements that were written. -/
def filterArray : Nat → Text → FilterState → Option (FilterState × Nat)
  | 0, _, _ => none
  | fuel + 1, arrayPath, st =>
    match st.rest with
    | '[' :: rest =>
      match skipWhitespace rest with
      | ']' :: t => some ({ st with rest := t }.write ['[', ']'], 0)
      | t => do
          let elementPath ← buildArrayElementPath arrayPath
          filterItems fuel elementPath true 0 ({ st with rest := t }.write ['['])
    | _ => none

/-- The loop over the elements. -/
def filterItems : Nat → Text → Bool → Nat → FilterState → Option (FilterState × Nat)
  | 0, _, _, _, _ => none
  | fuel + 1, elementPath, first, emitted, st => do
      let item ← filterItem fuel elementPath (lead first) st
      let first := first && !item.2
      let emitted := if item.2 then emitted + 1 else emitted
      match skipWhitespace item.1.rest with
      | ',' :: t =>
        filterItems fuel elementPath first emitted { item.1 with rest := skipWhitespace t }
      | ']' :: t => some ({ item.1 with rest := t }.write [']'], emitted)
      | _ => none

/-- An element, and whether it is kept. -/
def filterItem : Nat → Text → Text → FilterState → Option (FilterState × Bool)
  | 0, _, _, _ => none
  | fuel + 1, elementPath, itemLead, st =>
    match st.rest with
    | '\x7b' :: _ =>
      match rules.elementObject elementPath with
      | .skip => st.skipValue.map fun r => (r.1, false)
      | .copy => st.skipValue.map fun r =>
        ((r.1.write (itemLead ++ slice st.rest r.1.rest)).emit r.2, true)
      | .enter => (filterObject fuel elementPath (st.write itemLead)).map fun r =>
        if r.2 = 0 then ({ r.1 with writer := st.writer }, false) else (r.1, true)
    | _ => st.skipValue.map fun r =>
      if rules.elementOther elementPath then
        (r.1.write (itemLead ++ slice st.rest r.1.rest), true)
      else (r.1, false)

end

/-! ## The filters -/

def writeFilteredObject (sel : CompiledFieldSelection) := filterObject (selectionRules sel)

def writeFilteredObjectDenylist (filter : FieldFilterPolicy) := filterObject (policyRules filter)

/-- A filtered body and the number of fields that were removed. -/
structure FilteredBody where
  output : Text
  removedFieldCount : Nat
deriving DecidableEq

/-- `fits_capacity`: the writer holds its text and the terminator. -/
def fitCapacity (outputCapacity : Nat) (body : FilteredBody) :
    Except FlatJsonFilterStatus FilteredBody :=
  if body.output.length + 1 ≤ outputCapacity then .ok body else .error .outputTooSmall

/-- What the two nested filters do around the object: white space, and nothing behind it. -/
def filterBody (filter : Nat → Text → FilterState → Option (FilterState × Nat)) (inputBody : Text)
    (outputCapacity : Nat) : Except FlatJsonFilterStatus FilteredBody :=
  let rest := skipWhitespace (cString inputBody)
  match filter (4 * rest.length + 4) [] { rest } with
  | none => .error .skipUnsupported
  | some (st, _) =>
    if skipWhitespace st.rest = [] then
      fitCapacity outputCapacity
        { output := st.writer, removedFieldCount := st.metrics.removed }
    else .error .skipUnsupported

def filterNestedJsonBySelectedFields (inputBody : Text) (context : ApgTransformContext)
    (outputCapacity : Nat) : Except FlatJsonFilterStatus FilteredBody :=
  if selectionContainsUnsupportedArrayNotation context then .error .skipUnsupported
  else filterBody (writeFilteredObject (compileFieldSelection context)) inputBody outputCapacity

def filterNestedJsonByPolicyDenylist (inputBody : Text) (filter : FieldFilterPolicy)
    (outputCapacity : Nat) : Except FlatJsonFilterStatus FilteredBody :=
  filterBody (writeFilteredObjectDenylist filter) inputBody outputCapacity

/-- A field of a flat object as it is written: its key is put between quotes again. -/
def flatField (field : FlatJsonFieldView) : Text := '"' :: (field.key ++ ['"', ':'] ++ field.value)

def filterFlatJsonByPolicyDenylist (parsed : ParsedFlatJsonObject) (filter : FieldFilterPolicy)
    (outputCapacity : Nat) : Except FlatJsonFilterStatus FilteredBody :=
  if !parsed.hasSource then .error .skipUnsupported
  else
    let kept := parsed.fields.filter fun field => applyFieldFilter filter field.key
    fitCapacity outputCapacity
      { output := '\x7b' :: ([','].intercalate (kept.map flatField) ++ ['\x7d'])
        removedFieldCount := parsed.fields.length - kept.length }

def copyOriginalBody (inputBody : Text) (outputCapacity : Nat) :
    Except FlatJsonFilterStatus FilteredBody :=
  fitCapacity outputCapacity { output := cString inputBody, removedFieldCount := 0 }

/-- `write_invalid_json_safe_error`, which never reports `Ok`. -/
def invalidJsonSafeError (outputCapacity : Nat) : FlatJsonFilterStatus :=
  if (lit "\x7b\"error\":\"invalid_json\"\x7d").length + 1 ≤ outputCapacity then
    .invalidJsonSafeError
  else .outputTooSmall

/-- The field filter of the route, if it filters bodies by itself. -/
def bodyFilter (matchedPolicy : Option RoutePolicy) (context : ApgTransformContext) :
    Option FieldFilterPolicy :=
  match matchedPolicy with
  | none => none
  | some policy =>
    if !context.clientQueryPresent &&
        (policy.fieldFilter.mode = .allowlist || policy.fieldFilter.mode = .denylist) then
      some policy.fieldFilter
    else none

def transformFlatJsonWithFilterToggle (inputBody : Text) (parseStatus : FlatJsonParseStatus)
    (parsed : ParsedFlatJsonObject) (matchedPolicy : Option RoutePolicy)
    (context : ApgTransformContext) (filteringEnabled : Bool) (outputCapacity : Nat) :
    Except FlatJsonFilterStatus FilteredBody :=
  if !filteringEnabled then copyOriginalBody inputBody outputCapacity
  else
    match parseStatus with
    | .invalidJson => .error (invalidJsonSafeError outputCapacity)
    | .invalidInput => .error .invalidInput
    | .skipUnsupported =>
      if !parsed.hasSource then .error .skipUnsupported
      else
        match bodyFilter matchedPolicy context with
        | some filter => filterNestedJsonByPolicyDenylist inputBody filter outputCapacity
        | none => filterNestedJsonBySelectedFields inputBody context outputCapacity
    | .ok =>
      match bodyFilter matchedPolicy context with
      | some filter => filterFlatJsonByPolicyDenylist parsed filter outputCapacity
      | none => filterNestedJsonBySelectedFields inputBody context outputCapacity

end ByteTaper.JsonTransform
