import ByteTaper.ControlPlane.RecordText
import Mathlib.Tactic.IntervalCases

/-! # The values that the keys of a record lead to

What the readers of `policy_state_record.cpp` make of the text behind a key: a text up to its closing
quote, a number up to the first character that is no digit, an object up to its closing brace.
`seenText` and `seenNumber` say it on the list of members. -/

namespace ByteTaper.ControlPlane

open List Function

/-! ## Reading a value -/

/-- A control character for which the writer uses a `\\u` escape, which the reader does not know. -/
def isControl (c : Char) : Bool := c.toNat < 32 && c != '\n' && c != '\t' && c != '\r'

/-- What is read back of a written character. -/
def readBackChar (c : Char) : Text :=
  if isControl c then
    ['u', '0', '0', Nat.digitChar (c.toNat / 16), Nat.digitChar (c.toNat % 16)]
  else [c]

def readBack (v : Text) : Text := v.flatMap readBackChar

variable {c : Char} {rest members : List JsonMember} {tail : Text}

theorem readString_cons_of_ne (hquote : c ≠ '"') (hback : c ≠ '\\') (rest : Text) :
    readString (c :: rest) = c :: readString rest := by
  rw [readString.eq_def]
  split
  next h => cases h
  next h =>
    cases h
    exact absurd rfl hquote
  next h =>
    cases h
    exact absurd rfl hback
  next h =>
    cases h
    rfl

theorem readString_escapeChar (c : Char) (rest : Text) :
    readString (escapeChar c ++ rest) = readBackChar c ++ readString rest := by
  rcases escapeChar_cases c with ⟨hc, hge, hquote, hback⟩ | hc
  · have hlt : ¬c.toNat < 32 := by omega
    simp [hc, readBackChar, isControl, hlt, readString_cons_of_ne hquote hback]
  · simp only [escapedChars, mem_cons, mem_map, mem_range] at hc
    rcases hc with rfl | rfl | ⟨n, hn, rfl⟩
    · rfl
    · rfl
    · interval_cases n <;> rfl

theorem readString_escape (v rest : Text) :
    readString (escapeJsonString v ++ rest) = readBack v ++ readString rest := by
  induction v with
  | nil => rfl
  | cons c v ih =>
    rw [escapeJsonString_cons, append_assoc, readString_escapeChar, ih]
    simp [readBack]

/-- The text read for a key. A value that is no text is passed over, up to the next key. -/
def seenText (key : Text) (members : List JsonMember) : Text :=
  match found key members with
  | some (m :: rest) =>
    match m.value with
    | .text v | .cut v => readBack v
    | .number _ | .null | .object => (rest.head?.map (·.key)).getD []
  | _ => []

theorem readString_word {key : Text} (h : ∀ c ∈ key, c.isAlpha) (rest : Text) :
    readString (key ++ '"' :: rest) = key := by
  induction key with
  | nil => rfl
  | cons c _ ih =>
    have hc := h c mem_cons_self
    rw [cons_append, readString_cons_of_ne, ih fun d hd => h d (mem_cons_of_mem _ hd)]
    · rintro rfl
      exact absurd hc (by decide)
    · rintro rfl
      exact absurd hc (by decide)

/-- From a colon, a text value is read, and any other value passed over. -/
theorem readText_colon {m : JsonMember} (h : DocWf (m :: rest) tail) :
    (match (':' :: ' ' :: m.value.render ++ docText rest tail).dropWhile (· != '"') with
      | [] => []
      | _ :: text => readString text) =
      match m.value with
      | .text v | .cut v => readBack v
      | .number _ | .null | .object => (rest.head?.map (·.key)).getD [] := by
  obtain ⟨-, hcut, hrest⟩ := h
  have hplain : ∀ x : Text, '"' ∉ x →
      (match (':' :: ' ' :: x ++ docText rest tail).dropWhile (· != '"') with
        | [] => []
        | _ :: text => readString text) = (rest.head?.map (·.key)).getD [] := by
    intro x hx
    cases rest with
    | nil =>
      have htail := quote_notMem_filler hrest
      rw [show docText [] tail = tail from rfl, dropWhile_of_notMem (by simp [hx, htail])]
      rfl
    | cons n rest =>
      have hlead := quote_notMem_filler hrest.1.lead
      have hsplit : ':' :: ' ' :: x ++ docText (n :: rest) tail = (':' :: ' ' :: x ++ n.lead) ++
          '"' :: (n.key ++ '"' :: (':' :: ' ' :: n.value.render ++ docText rest tail)) := by
        simp
      rw [hsplit, dropWhile_append_sep (by simp [hx, hlead])]
      exact readString_word hrest.1.key _
  cases hv : m.value with
  | text v =>
    have hsplit : ':' :: ' ' :: (JsonValue.text v).render ++ docText rest tail =
        [':', ' '] ++ '"' :: (escapeJsonString v ++ '"' :: docText rest tail) := by
      simp [JsonValue.render]
    rw [hsplit, dropWhile_append_sep (by decide)]
    simp [readString_escape, readString]
  | cut v =>
    obtain ⟨rfl, rfl⟩ := hcut v hv
    have hsplit : ':' :: ' ' :: (JsonValue.cut v).render ++ docText [] [] =
        [':', ' '] ++ '"' :: (escapeJsonString v ++ []) := by
      simp [JsonValue.render, docText]
    exact (readString_escape v []).trans (by simp [readString])
  | number n => exact hplain _ (quote_notMem_toDigits n)
  | null => exact hplain _ (by decide +kernel)
  | object => exact hplain _ (by decide)

theorem getJsonStringField_docText {k : Text} (hk : KeyWord k) (h : DocWf members tail) :
    getJsonStringField (docText members tail) k = seenText k members := by
  unfold getJsonStringField seenText
  rw [fromColon_docText hk h]
  cases hfound : found k members with
  | none => rfl
  | some rest =>
    cases rest with
    | nil => rfl
    | cons => exact readText_colon (found_docWf h hfound)

/-! ## Reading a number -/

/-- The number read where a value stands; of a text, its digits behind spaces. -/
def JsonValue.numberIn : JsonValue → Nat
  | .number n => n
  | .text v | .cut v => Decimal.value ((v.dropWhile (· == ' ')).takeWhile Char.isDigit)
  | .null | .object => 0

/-- The number read for a key; `none` if it is out of range. -/
def seenNumber (key : Text) (members : List JsonMember) : Option UInt64 :=
  match found key members with
  | some (m :: _) => stoull m.value.numberIn
  | _ => some 0

theorem digitsIn_cons_skip (h : (isSpace c || c == '"')) (t : Text) :
    digitsIn (c :: t) = digitsIn t := by
  rw [digitsIn, dropWhile_cons, if_pos h]
  rfl

theorem digitsIn_cons_stop (h : (isSpace c || c == '"') = false) (t : Text) :
    digitsIn (c :: t) = (c :: t).takeWhile Char.isDigit := by
  rw [digitsIn, dropWhile_cons_of_neg (by simp [h])]

theorem digitsIn_cons_none (h : (isSpace c || c == '"') = false) (hdigit : c.isDigit = false)
    (t : Text) : digitsIn (c :: t) = [] := by
  rw [digitsIn_cons_stop h, takeWhile_cons_of_neg (by simp [hdigit])]

theorem isFiller_notDigit (h : isFiller c) : c.isDigit = false := by
  simp only [isFiller, Bool.or_eq_true, decide_eq_true_eq] at h
  rcases h with (((rfl | rfl) | rfl) | rfl) | rfl <;> rfl

theorem skip_eq_false (hge : 32 ≤ c.toNat) (hspace : c ≠ ' ') (hquote : c ≠ '"') :
    (isSpace c || c == '"') = false := by
  have hne : ∀ d : Char, d.toNat < 32 → c ≠ d := by
    rintro d hd rfl
    omega
  simp [isSpace, hspace, hquote, hne '\t' (by decide), hne '\n' (by decide),
    hne '\x0b' (by decide), hne '\x0c' (by decide), hne '\r' (by decide)]

theorem isAlpha_stop (h : c.isAlpha) : (isSpace c || c == '"') = false ∧ c.isDigit = false := by
  have hbound := isAlpha_bound h
  constructor
  · refine skip_eq_false (by omega) ?_ ?_ <;> rintro rfl <;>
      exact absurd h (by decide)
  · simp only [Char.isDigit, Bool.and_eq_false_iff, decide_eq_false_iff_not, ge_iff_le,
      UInt32.le_iff_toNat_le]
    change ¬ 48 ≤ c.toNat ∨ ¬ c.toNat ≤ 57
    omega

theorem digitsIn_filler {t : Text} (h : ∀ c ∈ t, isFiller c) {u : Text} (hu : digitsIn u = []) :
    digitsIn (t ++ u) = [] := by
  induction t with
  | nil => exact hu
  | cons c t ih =>
    cases hskip : isSpace c || c == '"' with
    | true =>
      rw [cons_append, digitsIn_cons_skip hskip]
      exact ih fun d hd => h d (mem_cons_of_mem _ hd)
    | false =>
      rw [cons_append, digitsIn_cons_none hskip (isFiller_notDigit (h c mem_cons_self))]

/-- No digits are found from the start of a document on. -/
theorem digitsIn_docText (h : DocWf members tail) : digitsIn (docText members tail) = [] := by
  cases members with
  | nil =>
    rw [show docText [] tail = tail ++ [] from (append_nil tail).symm]
    exact digitsIn_filler h rfl
  | cons m =>
    rw [docText_cons, append_assoc, append_assoc]
    refine digitsIn_filler h.1.lead ?_
    rw [cons_append, digitsIn_cons_skip (by decide)]
    cases hkey : m.key with
    | nil =>
      rw [nil_append, cons_append, digitsIn_cons_skip (by decide), cons_append,
        digitsIn_cons_none (by decide) (by decide)]
    | cons c key =>
      obtain ⟨hstop, hdigit⟩ := isAlpha_stop (h.1.key c (by simp [hkey]))
      rw [cons_append, digitsIn_cons_none hstop hdigit]

theorem takeWhile_digit_docText (h : DocWf members tail) :
    (docText members tail).takeWhile Char.isDigit = [] := by
  have hhead : ∀ c : Char, c.isDigit = false → ∀ t : Text, (c :: t).takeWhile Char.isDigit = [] :=
    fun c hc t => takeWhile_cons_of_neg (by simp [hc])
  cases members with
  | nil =>
    cases tail with
    | nil => rfl
    | cons c tail => exact hhead c (isFiller_notDigit (h c mem_cons_self)) tail
  | cons m =>
    rw [docText_cons]
    cases hlead : m.lead with
    | nil => exact hhead _ (by decide) _
    | cons c lead => exact hhead c (isFiller_notDigit (h.1.lead c (by simp [hlead]))) _

theorem escaped_head : ∀ c ∈ escapedChars,
    (escapeChar c).head? = some '\\' ∧ c.isDigit = false ∧ c ≠ ' ' := by decide

theorem takeWhile_digit_escape (v : Text) {u : Text} (hu : u.takeWhile Char.isDigit = []) :
    (escapeJsonString v ++ u).takeWhile Char.isDigit = v.takeWhile Char.isDigit := by
  induction v with
  | nil => exact hu
  | cons c v ih =>
    rw [escapeJsonString_cons, append_assoc]
    rcases escapeChar_cases c with ⟨hc, -⟩ | hc
    · rw [hc, singleton_append, takeWhile_cons, takeWhile_cons, ih]
    · obtain ⟨hhead, hdigit, -⟩ := escaped_head c hc
      obtain ⟨t, ht⟩ := head?_eq_some_iff.mp hhead
      rw [ht, cons_append, takeWhile_cons_of_neg (by decide),
        takeWhile_cons_of_neg (by simp [hdigit])]

/-- The digits found where an escaped text stands. -/
theorem digitsIn_escape (v : Text) {u : Text} (hskip : digitsIn u = [])
    (hu : u.takeWhile Char.isDigit = []) :
    digitsIn (escapeJsonString v ++ u) = (v.dropWhile (· == ' ')).takeWhile Char.isDigit := by
  induction v with
  | nil => exact hskip
  | cons c v ih =>
    rw [escapeJsonString_cons, append_assoc]
    rcases escapeChar_cases c with ⟨hc, hge, hquote, -⟩ | hc
    · by_cases hspace : c = ' '
      · subst hspace
        rw [hc, singleton_append, digitsIn_cons_skip (by decide), ih]
        rfl
      · rw [hc, singleton_append, digitsIn_cons_stop (skip_eq_false hge hspace hquote),
          dropWhile_cons_of_neg (by simpa using hspace), takeWhile_cons,
          takeWhile_cons, takeWhile_digit_escape v hu]
    · obtain ⟨hhead, hdigit, hspace⟩ := escaped_head c hc
      obtain ⟨t, ht⟩ := head?_eq_some_iff.mp hhead
      rw [ht, cons_append, digitsIn_cons_none (by decide) (by decide),
        dropWhile_cons_of_neg (by simpa using hspace),
        takeWhile_cons_of_neg (by simp [hdigit])]

theorem toDigits_cons (n : Nat) : ∃ c t, Nat.toDigits 10 n = c :: t := by
  cases h : Nat.toDigits 10 n with
  | nil =>
    have := Nat.length_toDigits_pos (b := 10) (n := n)
    simp [h] at this
  | cons c t => exact ⟨c, t, rfl⟩

theorem lit_null : lit "null" = ['n', 'u', 'l', 'l'] := by simp [lit]

/-- The number behind a colon is the one of the value there. -/
theorem readNumber_colon {m : JsonMember} (h : DocWf (m :: rest) tail) :
    Decimal.value (digitsIn (' ' :: m.value.render ++ docText rest tail)) = m.value.numberIn := by
  obtain ⟨-, hcut, hrest⟩ := h
  rw [cons_append, digitsIn_cons_skip (by decide)]
  cases hv : m.value with
  | text v =>
    have hsplit : (JsonValue.text v).render ++ docText rest tail =
        '"' :: (escapeJsonString v ++ '"' :: docText rest tail) := by
      simp [JsonValue.render]
    rw [hsplit, digitsIn_cons_skip (by decide), digitsIn_escape v]
    · rfl
    · rw [digitsIn_cons_skip (by decide), digitsIn_docText hrest]
    · exact takeWhile_cons_of_neg (by decide)
  | cut v =>
    obtain ⟨rfl, rfl⟩ := hcut v hv
    have hsplit : (JsonValue.cut v).render ++ docText [] [] =
        '"' :: (escapeJsonString v ++ []) := by
      simp [JsonValue.render, docText]
    rw [hsplit, digitsIn_cons_skip (by decide), digitsIn_escape v rfl rfl]
    rfl
  | number n =>
    obtain ⟨c, t, hdigs⟩ := toDigits_cons n
    have hall := Decimal.digits_toDigits n
    have hc : c.isDigit := hall c (by simp [hdigs])
    have hstop : (isSpace c || c == '"') = false := by
      have hne : ∀ d : Char, d.isDigit = false → c ≠ d := by
        rintro d hd rfl
        rw [hc] at hd
        cases hd
      simp [isSpace, hne ' ' rfl, hne '\t' rfl, hne '\n' rfl, hne '\x0b' rfl, hne '\x0c' rfl,
        hne '\r' rfl, hne '"' rfl]
    have htake : (Nat.toDigits 10 n ++ docText rest tail).takeWhile Char.isDigit =
        Nat.toDigits 10 n := by
      rw [takeWhile_append_of_pos hall, takeWhile_digit_docText hrest, append_nil]
    rw [JsonValue.render, hdigs, cons_append, digitsIn_cons_stop hstop,
      ← cons_append, ← hdigs, htake]
    simp [Decimal.value, JsonValue.numberIn]
  | null =>
    rw [JsonValue.render, lit_null, cons_append, digitsIn_cons_none (by decide) (by decide)]
    rfl
  | object => rfl

theorem getJsonUint64Field_docText {k : Text} (hk : KeyWord k) (h : DocWf members tail) :
    getJsonUint64Field (docText members tail) k = seenNumber k members := by
  unfold getJsonUint64Field seenNumber
  rw [fromColon_docText hk h]
  cases hfound : found k members with
  | none => rfl
  | some rest =>
    cases rest with
    | nil => rfl
    | cons => exact congrArg stoull (readNumber_colon (found_docWf h hfound))

/-! ## Cutting out an object -/

/-- The braces open behind a text that does not close the object. -/
def depthAfter (depth : Nat) : Text → Nat
  | [] => depth
  | c :: rest =>
    if c = '\x7b' then depthAfter (depth + 1) rest
    else if c = '\x7d' then depthAfter (depth - 1) rest
    else depthAfter depth rest

/-- The object ends in the first text, or is looked for behind it. -/
theorem takeObject_append (depth : Nat) (x u : Text) :
    takeObject depth (x ++ u) =
      match takeObject depth x with
      | some p => some p
      | none => (takeObject (depthAfter depth x) u).map (x ++ ·) := by
  induction x generalizing depth with
  | nil => simp [takeObject, depthAfter]
  | cons c x ih =>
    rw [cons_append]
    simp only [takeObject, depthAfter]
    split
    · rw [ih]
      cases takeObject (depth + 1) x <;> simp [comp_def]
    · split
      · split
        · rfl
        · rw [ih]
          cases takeObject (depth - 1) x <;> simp [comp_def]
      · rw [ih]
        cases takeObject depth x <;> simp [comp_def]

theorem depthAfter_append (depth : Nat) (x u : Text) :
    depthAfter depth (x ++ u) = depthAfter (depthAfter depth x) u := by
  induction x generalizing depth with
  | nil => rfl
  | cons c x ih => simp [depthAfter, ih, apply_ite (depthAfter · u)]

def NoBrace (t : Text) : Prop := '\x7b' ∉ t ∧ '\x7d' ∉ t

theorem takeObject_noBrace {x : Text} (h : NoBrace x) (depth : Nat) :
    takeObject depth x = none ∧ depthAfter depth x = depth := by
  induction x with
  | nil => exact ⟨rfl, rfl⟩
  | cons c x ih =>
    obtain ⟨hopen, hclose⟩ := h
    simp only [mem_cons, not_or] at hopen hclose
    have ih := ih ⟨hopen.2, hclose.2⟩
    simp [takeObject, depthAfter, Ne.symm hopen.1, Ne.symm hclose.1, ih]

theorem takeObject_skip {x : Text} (h : NoBrace x) (depth : Nat) (u : Text) :
    takeObject depth (x ++ u) = (takeObject depth u).map (x ++ ·) := by
  rw [takeObject_append, (takeObject_noBrace h depth).1, (takeObject_noBrace h depth).2]

theorem escapeChar_brace (h : c = '\x7b' ∨ c = '\x7d') : escapeChar c = [c] := by
  rcases h with rfl | rfl <;> rfl

theorem escapeChar_noBrace (hopen : c ≠ '\x7b') (hclose : c ≠ '\x7d') : NoBrace (escapeChar c) := by
  rcases escapeChar_cases c with ⟨hc, -⟩ | hc
  · simp [NoBrace, hc, Ne.symm hopen, Ne.symm hclose]
  · have hesc : ∀ c ∈ escapedChars, '\x7b' ∉ escapeChar c ∧ '\x7d' ∉ escapeChar c := by decide
    exact hesc c hc

/-- Escaping keeps the braces. -/
theorem takeObject_escape (depth : Nat) (v : Text) :
    takeObject depth (escapeJsonString v) = (takeObject depth v).map escapeJsonString ∧
      depthAfter depth (escapeJsonString v) = depthAfter depth v := by
  induction v generalizing depth with
  | nil => exact ⟨rfl, rfl⟩
  | cons c v ih =>
    by_cases hbrace : c = '\x7b' ∨ c = '\x7d'
    · rw [escapeJsonString_cons, escapeChar_brace hbrace, singleton_append]
      rcases hbrace with rfl | rfl
      · simp [takeObject, depthAfter, ih, comp_def, escapeChar_brace]
      · simp only [takeObject, depthAfter, ih]
        by_cases hd : depth ≤ 1
        · simp [hd, escapeChar_brace]
        · simp [hd, comp_def, escapeChar_brace]
    · obtain ⟨hopen, hclose⟩ := not_or.mp hbrace
      have hno := escapeChar_noBrace hopen hclose
      rw [escapeJsonString_cons]
      refine ⟨?_, ?_⟩
      · rw [takeObject_skip hno, (ih depth).1]
        simp [takeObject, hopen, hclose, comp_def]
      · rw [depthAfter_append, (takeObject_noBrace hno depth).2, (ih depth).2]
        simp [depthAfter, hopen, hclose]

/-- The members up to the brace that closes the object, when a text value holds it. -/
def cutAt (depth : Nat) : List JsonMember → Option (List JsonMember)
  | [] => none
  | m :: rest =>
    match m.value with
    | .text v =>
      match takeObject depth v with
      | some p => some [{ m with value := .cut p }]
      | none => (cutAt (depthAfter depth v) rest).map (m :: ·)
    | _ => (cutAt depth rest).map (m :: ·)

/-- The braces open behind members that do not close the object. -/
def depthOf (depth : Nat) : List JsonMember → Nat
  | [] => depth
  | m :: rest =>
    match m.value with
    | .text v => depthOf (depthAfter depth v) rest
    | _ => depthOf depth rest

/-- Braces stand in text values only. -/
structure JsonMember.Braceless (m : JsonMember) : Prop where
  lead : NoBrace m.lead
  key : NoBrace m.key
  value : (∃ v, m.value = .text v) ∨ ∃ n, m.value = .number n

theorem noBrace_toDigits (n : Nat) : NoBrace (Nat.toDigits 10 n) := by
  constructor <;> intro h <;> exact absurd (Decimal.digits_toDigits n _ h) (by decide)

theorem takeObject_docText (h : ∀ m ∈ members, m.Braceless) (depth : Nat) (tail : Text) :
    takeObject depth (docText members tail) = match cutAt depth members with
      | some part => some (docText part [])
      | none => (takeObject (depthOf depth members) tail).map (docText members ·) := by
  induction members generalizing depth with
  | nil => simp [docText, cutAt, depthOf]
  | cons m members ih =>
    have ih := ih fun n hn => h n (mem_cons_of_mem _ hn)
    obtain ⟨hlead, hkey, hval⟩ := h m mem_cons_self
    have hpre : NoBrace (m.lead ++ '"' :: (m.key ++ ['"', ':', ' '])) := by
      constructor <;> simp [hlead.1, hlead.2, hkey.1, hkey.2]
    have hdoc : ∀ t, docText (m :: members) t =
        (m.lead ++ '"' :: (m.key ++ ['"', ':', ' '])) ++ (m.value.render ++ docText members t) := by
      intro t
      simp [docText]
    rw [hdoc, takeObject_skip hpre]
    rcases hval with ⟨v, hv⟩ | ⟨n, hn⟩
    · have hrender : m.value.render ++ docText members tail =
          ['"'] ++ (escapeJsonString v ++ (['"'] ++ docText members tail)) := by
        simp [hv, JsonValue.render]
      have hquote : NoBrace ['"'] := by constructor <;> decide
      rw [hrender, takeObject_skip hquote, takeObject_append, (takeObject_escape depth v).1,
        (takeObject_escape depth v).2, takeObject_skip hquote, ih]
      simp only [cutAt, depthOf, hv]
      cases takeObject depth v with
      | some => simp [docText, JsonValue.render]
      | none =>
        cases cutAt (depthAfter depth v) members with
        | some => simp [docText, hv, JsonValue.render]
        | none => simp [hdoc, hv, JsonValue.render, comp_def]
    · have hrender : NoBrace m.value.render := hn ▸ noBrace_toDigits n
      have hcut : cutAt depth (m :: members) = (cutAt depth members).map (m :: ·) := by
        simp [cutAt, hn]
      have hdepth : depthOf depth (m :: members) = depthOf depth members := by
        simp [depthOf, hn]
      rw [takeObject_skip hrender, ih, hcut, hdepth]
      cases cutAt depth members with
      | some => simp [docText]
      | none => simp [hdoc, comp_def]

end ByteTaper.ControlPlane
