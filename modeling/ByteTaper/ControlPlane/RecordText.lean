import ByteTaper.Library.Decimal
import ByteTaper.Library.Text
import Mathlib.Data.List.TakeWhile

/-! # Reading records by searching for their keys

The helpers of `policy_state_record.cpp`. A record is written as a JSON object, one member a line,
and read without a parser: a member is looked for by the first place where its key stands between
two quotes, and its value by the next colon and quote. A text value that is itself such a key, or
that ends in a quote and such a key, is taken for it.

`docText` is the text of any list of members. Where a key leads in it is said on the list, by
`found`. -/

namespace ByteTaper.ControlPlane

open List

/-! ## Escapes -/

def escapeChar (c : Char) : Text :=
  if c = '"' then ['\\', '"']
  else if c = '\\' then ['\\', '\\']
  else if c = '\n' then ['\\', 'n']
  else if c = '\t' then ['\\', 't']
  else if c = '\r' then ['\\', 'r']
  else if c.toNat < 32 then
    ['\\', 'u', '0', '0', Nat.digitChar (c.toNat / 16), Nat.digitChar (c.toNat % 16)]
  else [c]

def escapeJsonString (input : Text) : Text := input.flatMap escapeChar

/-- The character that a backslash and `next` are read as. -/
def unescapeChar (next : Char) : Char :=
  if next = 'n' then '\n' else if next = 't' then '\t' else if next = 'r' then '\r' else next

/-- The loop of `get_json_string_field`: read up to the closing quote, or to the end. -/
def readString : Text → Text
  | [] => []
  | '"' :: _ => []
  | '\\' :: next :: rest => unescapeChar next :: readString rest
  | c :: rest => c :: readString rest

/-! ## Looking for a key -/

/-- What follows the first occurrence of `pattern`. -/
def afterFirst (pattern : Text) : Text → Option Text
  | [] => none
  | c :: rest =>
    if pattern.isPrefixOf (c :: rest) then some ((c :: rest).drop pattern.length)
    else afterFirst pattern rest

def isSpace (c : Char) : Bool :=
  c = ' ' || c = '\t' || c = '\n' || c = '\x0b' || c = '\x0c' || c = '\r'

def quoted (key : Text) : Text := '"' :: (key ++ ['"'])

/-- The text from the first colon on. -/
def colonAfter (text : Text) : Option Text :=
  match text.dropWhile (· != ':') with
  | [] => none
  | colon => some colon

variable (json key : Text)

/-- The text from the colon on that follows the first occurrence of the key in quotes. -/
def fromColon : Option Text :=
  (afterFirst (quoted key) json).bind colonAfter

def getJsonStringField : Text :=
  match fromColon json key with
  | none => []
  | some colon =>
    match colon.dropWhile (· != '"') with
    | [] => []
    | _ :: text => readString text

/-- Skip spaces and quotes, and take the digits. -/
def digitsIn (t : Text) : Text :=
  (t.dropWhile fun c => isSpace c || c == '"').takeWhile Char.isDigit

/-- `std::stoull`, which throws if the number is out of range. -/
def stoull (n : Nat) : Option UInt64 := if n < 2 ^ 64 then some n.toUInt64 else none

/-- `none` if `std::stoull` throws. -/
def getJsonUint64Field : Option UInt64 :=
  match fromColon json key with
  | none => some 0
  | some colon => stoull (Decimal.value (digitsIn (colon.drop 1)))

def getJsonUint32Field : Option UInt32 :=
  (getJsonUint64Field json key).map (·.toUInt32)

def jsonFieldIsNull : Bool :=
  match fromColon json key with
  | none => false
  | some colon => (lit "null").isPrefixOf ((colon.drop 1).dropWhile isSpace)

/-- The text up to the brace that closes the object, counting all braces; `depth` are open. -/
def takeObject (depth : Nat) : Text → Option Text
  | [] => none
  | c :: rest =>
    if c = '\x7b' then (takeObject (depth + 1) rest).map (c :: ·)
    else if c = '\x7d' then
      if depth ≤ 1 then some [c] else (takeObject (depth - 1) rest).map (c :: ·)
    else (takeObject depth rest).map (c :: ·)

def extractJsonObject : Text :=
  match fromColon json key with
  | none => []
  | some colon =>
    match (colon.drop 1).dropWhile isSpace with
    | [] => []
    | c :: rest => if c = '\x7b' then (takeObject 0 (c :: rest)).getD [] else []

/-! ## Texts of members -/

/-- What stands behind the colon of a member. `object` is an opening brace whose members follow;
    `cut` is a text value that ends before its closing quote, where a text has been cut off. -/
inductive JsonValue where
  | text (v : Text)
  | number (n : Nat)
  | null
  | object
  | cut (v : Text)

def JsonValue.render : JsonValue → Text
  | .text v => '"' :: escapeJsonString v ++ ['"']
  | .number n => Nat.toDigits 10 n
  | .null => lit "null"
  | .object => ['\x7b']
  | .cut v => '"' :: escapeJsonString v

/-- A member of an object, after the characters that separate it from what is before it. -/
structure JsonMember where
  lead : Text
  key : Text
  value : JsonValue

def docText (members : List JsonMember) (tail : Text) : Text :=
  members.foldr (fun m rest =>
    m.lead ++ '"' :: m.key ++ '"' :: ':' :: ' ' :: m.value.render ++ rest) tail

/-- The characters between members. -/
def isFiller (c : Char) : Bool :=
  c = ',' || c = '\n' || c = ' ' || c = '\x7b' || c = '\x7d'

/-- Keys are words of letters; between the members stand fillers only. -/
structure JsonMember.WellFormed (m : JsonMember) : Prop where
  key : ∀ c ∈ m.key, c.isAlpha
  lead : ∀ c ∈ m.lead, isFiller c

def KeyWord (key : Text) : Prop := key ≠ [] ∧ ∀ c ∈ key, c.isAlpha

/-! ## What a key leads to -/

/-- The part of a text behind its last quote. -/
def lastPart : Text → Text
  | [] => []
  | c :: v => if '"' ∈ c :: v then lastPart v else c :: v

/-- The value would be taken for the key: it is the key, or ends in a quote and the key. -/
def JsonValue.hits (key : Text) : JsonValue → Bool
  | .text v => lastPart v = key
  | _ => false

/-- The members from the one on whose value is read for the key: its own, or the one after a text
    that is taken for it. -/
def found (key : Text) : List JsonMember → Option (List JsonMember)
  | [] => none
  | m :: rest =>
    if m.key = key then some (m :: rest)
    else if m.value.hits key then some rest
    else found key rest

/-! ## Finding a pattern in quotes -/

section Search

variable {k : Text}

theorem KeyWord.quote_notMem (hk : KeyWord k) : '"' ∉ k := by
  intro h
  exact absurd (hk.2 _ h) (by decide)

/-- The pattern starts with a quote, so text without quotes is skipped. -/
theorem afterFirst_skip {a : Text} (ha : '"' ∉ a) (p t : Text) :
    afterFirst ('"' :: p) (a ++ t) = afterFirst ('"' :: p) t := by
  induction a with
  | nil => rfl
  | cons c a ih =>
    simp only [mem_cons, not_or] at ha
    rw [cons_append, afterFirst, if_neg, ih ha.2]
    simp [List.isPrefixOf, ha.1]

/-- Between two quotes the key is found if it is what stands there. -/
theorem afterFirst_quote (hk : KeyWord k) {s : Text} (hs : '"' ∉ s) (rest : Text) :
    afterFirst (quoted k) ('"' :: (s ++ '"' :: rest)) =
      if s = k then some rest else afterFirst (quoted k) ('"' :: rest) := by
  have hstarts : (quoted k).isPrefixOf ('"' :: (s ++ '"' :: rest)) ↔ s = k := by
    rw [List.isPrefixOf_iff_prefix, quoted, cons_prefix_cons]
    constructor
    · rintro ⟨-, t, ht⟩
      rw [append_assoc, singleton_append] at ht
      exact (Text.append_sep_inj hk.quote_notMem hs ht).1.symm
    · rintro rfl
      exact ⟨rfl, rest, by simp⟩
  rw [afterFirst]
  by_cases h : s = k
  · simp [quoted, h]
  · rw [if_neg (mt hstarts.mp h), if_neg h]
    exact afterFirst_skip hs _ _

theorem afterFirst_noQuote {t : Text} (ht : '"' ∉ t) (p : Text) :
    afterFirst ('"' :: p) t = none := by
  rw [← append_nil t, afterFirst_skip ht]
  rfl

/-- Behind the last quote nothing is found. -/
theorem afterFirst_lastQuote (k : Text) {t : Text} (ht : '"' ∉ t) :
    afterFirst (quoted k) ('"' :: t) = none := by
  rw [afterFirst, if_neg, quoted, afterFirst_noQuote ht]
  rw [List.isPrefixOf_iff_prefix, quoted]
  rintro ⟨u, hu⟩
  rw [cons_append, List.cons.injEq] at hu
  exact ht (by simp [← hu.2])

end Search

/-! ## Escaped texts -/

variable {c : Char} {k x tail : Text} {members rest : List JsonMember}

/-- The characters that are written with a backslash. -/
def escapedChars : List Char := '"' :: '\\' :: (List.range 32).map Char.ofNat

theorem escapeChar_cases (c : Char) :
    (escapeChar c = [c] ∧ 32 ≤ c.toNat ∧ c ≠ '"' ∧ c ≠ '\\') ∨ c ∈ escapedChars := by
  by_cases hquote : c = '"'
  · exact .inr (by simp [escapedChars, hquote])
  by_cases hback : c = '\\'
  · exact .inr (by simp [escapedChars, hback])
  by_cases hlt : c.toNat < 32
  · refine .inr (mem_cons_of_mem _ (mem_cons_of_mem _ ?_))
    exact mem_map.mpr ⟨c.toNat, mem_range.mpr hlt, Char.ofNat_toNat c⟩
  have hne : ∀ d : Char, d.toNat < 32 → c ≠ d := by
    rintro d hd rfl
    exact hlt hd
  refine .inl ⟨?_, by omega, hquote, hback⟩
  simp [escapeChar, hquote, hback, hlt, hne '\n' (by decide), hne '\t' (by decide),
    hne '\r' (by decide)]

theorem quote_notMem_escapeChar (h : c ≠ '"') : '"' ∉ escapeChar c := by
  rcases escapeChar_cases c with ⟨hc, -⟩ | hc
  · simpa [hc] using Ne.symm h
  · have hesc : ∀ c ∈ escapedChars, c ≠ '"' → '"' ∉ escapeChar c := by decide
    exact hesc c hc h

theorem isAlpha_bound (h : c.isAlpha) :
    (65 ≤ c.toNat ∧ c.toNat ≤ 90) ∨ (97 ≤ c.toNat ∧ c.toNat ≤ 122) := by
  have hbounds : (decide (c.val ≥ 65 ∧ c.val ≤ 90) ||
      decide (c.val ≥ 97) && decide (c.val ≤ 122)) := h
  simp only [Bool.or_eq_true, Bool.and_eq_true, decide_eq_true_eq, ge_iff_le,
    UInt32.le_iff_toNat_le] at hbounds
  exact hbounds

theorem escapeChar_of_alpha (h : c.isAlpha) : escapeChar c = [c] := by
  rcases escapeChar_cases c with ⟨hc, -⟩ | hc
  · exact hc
  · have hesc : ∀ c ∈ escapedChars, ¬c.isAlpha := by decide
    exact absurd h (hesc c hc)

/-- An escaped character without a backslash is the character itself. -/
theorem escapeChar_of_noBackslash (h : '\\' ∉ escapeChar c) : escapeChar c = [c] := by
  rcases escapeChar_cases c with ⟨hc, -⟩ | hc
  · exact hc
  · have hesc : ∀ c ∈ escapedChars, '\\' ∈ escapeChar c := by decide
    exact absurd (hesc c hc) h

@[simp] theorem escapeJsonString_nil : escapeJsonString [] = [] := rfl

@[simp] theorem escapeJsonString_cons (c : Char) (v : Text) :
    escapeJsonString (c :: v) = escapeChar c ++ escapeJsonString v := rfl

theorem escapeJsonString_of_noBackslash {v : Text} (h : '\\' ∉ escapeJsonString v) :
    escapeJsonString v = v := by
  induction v with
  | nil => rfl
  | cons c v ih =>
    simp only [escapeJsonString_cons, mem_append, not_or] at h
    rw [escapeJsonString_cons, escapeChar_of_noBackslash h.1, ih h.2]
    rfl

/-- A text is a key word after escaping if it was one before. -/
theorem escapeJsonString_eq_key (hk : KeyWord k) {v : Text} : escapeJsonString v = k ↔ v = k := by
  constructor
  · intro h
    have hno : '\\' ∉ escapeJsonString v := by
      rw [h]
      intro hmem
      exact absurd (hk.2 _ hmem) (by decide)
    rw [← h, escapeJsonString_of_noBackslash hno]
  · rintro rfl
    have hword := hk.2
    clear hk
    induction v with
    | nil => rfl
    | cons c v ih =>
      rw [escapeJsonString_cons, escapeChar_of_alpha (hword c mem_cons_self),
        ih fun d hd => hword d (mem_cons_of_mem _ hd)]
      rfl

/-! ## Text values in a search -/

/-- The last stretch without quotes of an escaped text that follows `s`. -/
def lastStretch (s v : Text) : Text :=
  if '"' ∈ v then escapeJsonString (lastPart v) else s ++ escapeJsonString v

/-- Every stretch of an escaped text but the last ends in a backslash, and is no key. -/
theorem afterFirst_stretch (hk : KeyWord k) {s : Text} (hs : '"' ∉ s) (v rest : Text) :
    afterFirst (quoted k) ('"' :: (s ++ escapeJsonString v ++ '"' :: rest)) =
      if lastStretch s v = k then some rest else afterFirst (quoted k) ('"' :: rest) := by
  induction v generalizing s with
  | nil => simpa [lastStretch] using afterFirst_quote hk hs rest
  | cons c v ih =>
    by_cases hc : c = '"'
    · subst hc
      have hstretch : lastStretch s ('"' :: v) = lastStretch [] v := by
        simp only [lastStretch, mem_cons, true_or, if_true, lastPart, nil_append]
        split
        · rfl
        next hv =>
          cases v with
          | nil => rfl
          | cons => rw [lastPart, if_neg hv]
      have hback : s ++ ['\\'] ≠ k := by
        rintro rfl
        exact absurd (hk.2 '\\' (by simp)) (by decide)
      have hsplit : '"' :: (s ++ escapeJsonString ('"' :: v) ++ '"' :: rest) =
          '"' :: ((s ++ ['\\']) ++ '"' :: (escapeJsonString v ++ '"' :: rest)) := by
        simp [escapeChar]
      rw [hsplit, afterFirst_quote hk (by simpa using hs), if_neg hback, hstretch]
      exact ih (s := []) (by simp)
    · have hstretch : lastStretch s (c :: v) = lastStretch (s ++ escapeChar c) v := by
        simp only [lastStretch, mem_cons, Ne.symm hc, false_or, escapeJsonString_cons, append_assoc]
        split
        next hv => rw [lastPart, if_pos (mem_cons_of_mem _ hv)]
        next => rfl
      rw [hstretch, ← ih (by simp [hs, quote_notMem_escapeChar hc])]
      simp

/-- A text value is taken for the key if it `hits` it. -/
theorem afterFirst_text (hk : KeyWord k) (v rest : Text) :
    afterFirst (quoted k) ('"' :: (escapeJsonString v ++ '"' :: rest)) =
      if (JsonValue.text v).hits k then some rest
      else afterFirst (quoted k) ('"' :: rest) := by
  have hstretch : lastStretch [] v = k ↔ (JsonValue.text v).hits k := by
    simp only [lastStretch, JsonValue.hits, decide_eq_true_eq]
    split
    · exact escapeJsonString_eq_key hk
    rename_i hv
    have hlast : lastPart v = v := by
      cases v with
      | nil => rfl
      | cons => rw [lastPart, if_neg hv]
    rw [nil_append, hlast]
    exact escapeJsonString_eq_key hk
  have h := afterFirst_stretch hk (s := []) (by simp) v rest
  rw [nil_append] at h
  rw [h]
  exact if_congr hstretch rfl rfl

/-- A text that is cut off is never taken for a key. -/
theorem afterFirst_cut (hk : KeyWord k) {s : Text} (hs : '"' ∉ s) (v : Text) :
    afterFirst (quoted k) ('"' :: (s ++ escapeJsonString v)) = none := by
  induction v generalizing s with
  | nil => exact afterFirst_lastQuote k (by simpa using hs)
  | cons c v ih =>
    by_cases hc : c = '"'
    · subst hc
      have hback : s ++ ['\\'] ≠ k := by
        rintro rfl
        exact absurd (hk.2 '\\' (by simp)) (by decide)
      have hsplit : '"' :: (s ++ escapeJsonString ('"' :: v)) =
          '"' :: ((s ++ ['\\']) ++ '"' :: escapeJsonString v) := by
        simp [escapeChar]
      rw [hsplit, afterFirst_quote hk (by simpa using hs), if_neg hback]
      exact ih (s := []) (by simp)
    · rw [← ih (s := s ++ escapeChar c) (by simp [hs, quote_notMem_escapeChar hc])]
      simp

/-! ## Searching a document -/

/-- Members and what stands around them are well formed, and only the end of a text can be cut. -/
def DocWf : List JsonMember → Text → Prop
  | [], tail => ∀ c ∈ tail, isFiller c
  | m :: rest, tail =>
    m.WellFormed ∧ (∀ v, m.value = .cut v → rest = [] ∧ tail = []) ∧ DocWf rest tail

@[simp] theorem docText_cons (m : JsonMember) (rest : List JsonMember) (tail : Text) :
    docText (m :: rest) tail =
      m.lead ++ '"' :: m.key ++ '"' :: ':' :: ' ' :: m.value.render ++ docText rest tail := rfl

/-- The text from the colon of the first member on. -/
def colonText : List JsonMember → Text → Option Text
  | [], _ => none
  | m :: rest, tail => some (':' :: ' ' :: m.value.render ++ docText rest tail)

theorem quote_notMem_filler {t : Text} (h : ∀ c ∈ t, isFiller c) : '"' ∉ t := fun hmem =>
  absurd (h _ hmem) (by decide)

theorem colon_notMem_filler {t : Text} (h : ∀ c ∈ t, isFiller c) : ':' ∉ t := fun hmem =>
  absurd (h _ hmem) (by decide)

theorem KeyWord.ne_of_colon (hk : KeyWord k) (hx : ':' ∈ x) : x ≠ k := by
  rintro rfl
  exact absurd (hk.2 _ hx) (by decide)

theorem KeyWord.ne_of_filler (hk : KeyWord k) (hx : ∀ c ∈ x, isFiller c) : x ≠ k := by
  rintro rfl
  obtain ⟨hne, halpha⟩ := hk
  cases x with
  | nil => exact hne rfl
  | cons c =>
    have hc := halpha c mem_cons_self
    have hfill := hx c mem_cons_self
    simp only [isFiller, Bool.or_eq_true, decide_eq_true_eq] at hfill
    rcases hfill with (((rfl | rfl) | rfl) | rfl) | rfl <;> exact absurd hc (by decide)

/-- From a closing quote the search goes on with the next member: what stands between is no key. -/
theorem afterFirst_next (hk : KeyWord k) (hx : x = [] ∨ ':' ∈ x) (hquote : '"' ∉ x)
    (h : DocWf members tail) :
    afterFirst (quoted k) ('"' :: (x ++ docText members tail)) =
      afterFirst (quoted k) (docText members tail) := by
  cases members with
  | nil =>
    have htail := quote_notMem_filler h
    have hnone := afterFirst_lastQuote k (t := x ++ tail) (by simp [hquote, htail])
    exact hnone.trans (afterFirst_noQuote htail _).symm
  | cons m rest =>
    have hlead := quote_notMem_filler h.1.lead
    have hne : x ++ m.lead ≠ k := by
      rcases hx with rfl | hx
      · exact hk.ne_of_filler h.1.lead
      · exact hk.ne_of_colon (mem_append_left _ hx)
    have hsplit : '"' :: (x ++ docText (m :: rest) tail) = '"' :: ((x ++ m.lead) ++
        '"' :: (m.key ++ '"' :: ':' :: ' ' :: m.value.render ++ docText rest tail)) := by
      simp
    rw [hsplit, afterFirst_quote hk (by simp [hquote, hlead]), if_neg hne]
    have hskip := afterFirst_skip hlead (k ++ ['"'])
      ('"' :: (m.key ++ '"' :: ':' :: ' ' :: m.value.render ++ docText rest tail))
    simpa [quoted] using hskip.symm

theorem dropWhile_append_sep {y : Text} {sep : Char} (h : sep ∉ x) :
    (x ++ sep :: y).dropWhile (· != sep) = sep :: y := by
  rw [dropWhile_append_of_pos]
  · simp
  · intro c hc
    have hne : c ≠ sep := fun heq => h (heq ▸ hc)
    simpa using hne

theorem dropWhile_of_notMem {sep : Char} (h : sep ∉ x) : x.dropWhile (· != sep) = [] := by
  rw [dropWhile_eq_nil_iff]
  intro c hc
  have hne : c ≠ sep := fun heq => h (heq ▸ hc)
  simpa using hne

/-- The next colon of a document is the one of its first member. -/
theorem colonAfter_docText (h : DocWf members tail) :
    colonAfter (docText members tail) = colonText members tail := by
  unfold colonAfter
  cases members with
  | nil =>
    rw [show docText [] tail = tail from rfl, dropWhile_of_notMem (colon_notMem_filler h)]
    rfl
  | cons m rest =>
    have hkey : ':' ∉ m.key := fun hmem => absurd (h.1.key _ hmem) (by decide)
    have hbef : ':' ∉ m.lead ++ '"' :: m.key ++ ['"'] := by
      simp [colon_notMem_filler h.1.lead, hkey]
    have hsplit : docText (m :: rest) tail = (m.lead ++ '"' :: m.key ++ ['"']) ++
        ':' :: (' ' :: m.value.render ++ docText rest tail) := by
      simp
    rw [hsplit, dropWhile_append_sep hbef]
    rfl

theorem quote_notMem_toDigits (n : Nat) : '"' ∉ Nat.toDigits 10 n := fun hmem =>
  absurd (Decimal.digits_toDigits n _ hmem) (by decide)

/-- Behind the key of a member: a text value may be taken for the key, other values are passed. -/
theorem afterFirst_value (hk : KeyWord k) {v : JsonValue} (h : DocWf rest tail)
    (hcut : ∀ u, v = .cut u → rest = [] ∧ tail = []) :
    afterFirst (quoted k) ('"' :: (':' :: ' ' :: v.render ++ docText rest tail)) =
      if v.hits k then some (docText rest tail)
      else afterFirst (quoted k) (docText rest tail) := by
  have hplain : '"' ∉ v.render → v.hits k = false →
      afterFirst (quoted k) ('"' :: (':' :: ' ' :: v.render ++ docText rest tail)) =
        if v.hits k then some (docText rest tail)
        else afterFirst (quoted k) (docText rest tail) := by
    intro hquote hhits
    rw [hhits, if_neg (by decide)]
    exact afterFirst_next hk (x := ':' :: ' ' :: v.render) (.inr (by simp)) (by simp [hquote]) h
  have hcolon : [':', ' '] ≠ k := hk.ne_of_colon (by simp)
  cases v with
  | text v =>
    have hsplit : '"' :: (':' :: ' ' :: (JsonValue.text v).render ++ docText rest tail) =
        '"' :: ([':', ' '] ++ '"' :: (escapeJsonString v ++ '"' :: docText rest tail)) := by
      simp [JsonValue.render]
    rw [hsplit, afterFirst_quote hk (by decide), if_neg hcolon, afterFirst_text hk]
    have hnext := afterFirst_next hk (.inl rfl) (by simp) h
    rw [nil_append] at hnext
    rw [hnext]
  | number n => exact hplain (quote_notMem_toDigits n) rfl
  | null => exact hplain (by decide +kernel) rfl
  | object => exact hplain (by decide) rfl
  | cut v =>
    obtain ⟨rfl, rfl⟩ := hcut v rfl
    have hsplit : '"' :: (':' :: ' ' :: (JsonValue.cut v).render ++ docText [] []) =
        '"' :: ([':', ' '] ++ '"' :: escapeJsonString v) := by
      simp [JsonValue.render, docText]
    have hnone := afterFirst_cut hk (s := []) (by simp) v
    rw [nil_append] at hnone
    rw [hsplit, afterFirst_quote hk (by decide), if_neg hcolon, hnone]
    rfl

theorem found_docWf (h : DocWf members tail) (hfound : found k members = some rest) :
    DocWf rest tail := by
  induction members with
  | nil => cases hfound
  | cons _ _ ih =>
    rw [found] at hfound
    split at hfound
    · cases hfound
      exact h
    · split at hfound
      · cases hfound
        exact h.2.2
      · exact ih h.2.2 hfound

/-- Where the readers look for the value of a key. -/
theorem fromColon_docText (hk : KeyWord k) (h : DocWf members tail) :
    fromColon (docText members tail) k = (found k members).bind (colonText · tail) := by
  unfold fromColon
  induction members with
  | nil =>
    rw [quoted, show docText [] tail = tail from rfl, afterFirst_noQuote (quote_notMem_filler h)]
    rfl
  | cons m rest ih =>
    obtain ⟨hwf, hcut, hrest⟩ := h
    have hkey : '"' ∉ m.key := fun hmem => absurd (hwf.key _ hmem) (by decide)
    have hskip := afterFirst_skip (quote_notMem_filler hwf.lead) (k ++ ['"'])
      ('"' :: (m.key ++ '"' :: (':' :: ' ' :: m.value.render ++ docText rest tail)))
    have hdoc : docText (m :: rest) tail = m.lead ++
        '"' :: (m.key ++ '"' :: (':' :: ' ' :: m.value.render ++ docText rest tail)) := by
      simp
    rw [hdoc, show quoted k = '"' :: (k ++ ['"']) from rfl, hskip,
      show '"' :: (k ++ ['"']) = quoted k from rfl, afterFirst_quote hk hkey, found]
    split
    · simp [colonAfter, colonText]
    · rw [afterFirst_value hk hrest hcut]
      split
      · exact colonAfter_docText hrest
      · exact ih hrest

end ByteTaper.ControlPlane
