import ByteTaper.Library.Text
import Mathlib.Data.List.TakeWhile

/-! # JSON texts

The grammar of JSON over byte strings. A tree keeps what a text says: the keys and strings character
by character as they are written, every other scalar as its text, and members and elements in their
order. White space is not kept, so one tree has many texts, and `Spells` relates it to all of them.
A text has at most one tree (`ObjectText.unique`).

Strings are lists of `StringChar`, each of which is a legal character or escape by construction, and
`decode` is the byte string that they stand for. -/

namespace Json

open List

/-! ## Characters -/

def isBlank (c : Char) : Bool := c = ' ' || c = '\t' || c = '\n' || c = '\r'

def Blank (t : Text) : Prop := ∀ c ∈ t, isBlank c = true

/-- What may stand behind a value. -/
def isDelimiter (c : Char) : Bool := isBlank c || c = ',' || c = ']' || c = '\x7d'

def Follow (t : Text) : Prop := ∀ c, t.head? = some c → isDelimiter c = true

def isHex (c : Char) : Bool :=
  ('0' ≤ c && c ≤ '9') || ('a' ≤ c && c ≤ 'f') || ('A' ≤ c && c ≤ 'F')

abbrev HexDigit := { c : Char // isHex c = true }

/-- A character that stands for itself in a string. -/
def isPlain (c : Char) : Bool := c ≠ '"' && c ≠ '\\' && 32 ≤ c.toNat

/-- A character that is an escape behind a backslash; `u` is not among them. -/
def isEscape (c : Char) : Bool := c ∈ ['"', '\\', '/', 'b', 'f', 'n', 'r', 't']

inductive StringChar where
  | plain (c : Char) (h : isPlain c = true)
  | escape (c : Char) (h : isEscape c = true)
  | unicode (a b c d : HexDigit)

abbrev Key := List StringChar

def StringChar.text : StringChar → Text
  | .plain c _ => [c]
  | .escape c _ => ['\\', c]
  | .unicode a b c d => ['\\', 'u', a.val, b.val, c.val, d.val]

/-- The characters between the quotes. -/
def Key.inner (key : Key) : Text := key.flatMap StringChar.text

def Key.text (key : Key) : Text := '"' :: (Key.inner key ++ ['"'])

/-- The key that is written without escapes; what needs one is left out. -/
def Key.ofText (t : Text) : Key :=
  t.filterMap fun c => if h : isPlain c = true then some (.plain c h) else none

/-- The text may stand between quotes. -/
def Quotable (t : Text) : Prop := ∃ key : Key, Key.inner key = t

/-! ## What a string stands for -/

def hexValue (c : HexDigit) : Nat :=
  if c.val ≤ '9' then c.val.toNat - 48
  else if c.val ≤ 'F' then c.val.toNat - 55
  else c.val.toNat - 87

def codeUnit (a b c d : HexDigit) : Nat :=
  4096 * hexValue a + 256 * hexValue b + 16 * hexValue c + hexValue d

/-- The bytes of a code point. A surrogate without its partner gets the three bytes of its number. -/
def utf8 (n : Nat) : Text :=
  if n < 0x80 then [Char.ofNat n]
  else if n < 0x800 then [Char.ofNat (0xc0 + n / 64), Char.ofNat (0x80 + n % 64)]
  else if n < 0x10000 then
    [Char.ofNat (0xe0 + n / 4096), Char.ofNat (0x80 + n / 64 % 64), Char.ofNat (0x80 + n % 64)]
  else
    [Char.ofNat (0xf0 + n / 262144), Char.ofNat (0x80 + n / 4096 % 64),
      Char.ofNat (0x80 + n / 64 % 64), Char.ofNat (0x80 + n % 64)]

def escaped (c : Char) : Char :=
  if c = 'b' then '\x08' else if c = 'f' then '\x0c' else if c = 'n' then '\n'
  else if c = 'r' then '\r' else if c = 't' then '\t' else c

def isHighSurrogate (n : Nat) : Bool := 0xd800 ≤ n && n < 0xdc00
def isLowSurrogate (n : Nat) : Bool := 0xdc00 ≤ n && n < 0xe000

/-- The byte string that a string stands for; two surrogates in a row are one code point. -/
def Key.decode : Key → Text
  | [] => []
  | .plain c _ :: rest => c :: Key.decode rest
  | .escape c _ :: rest => escaped c :: Key.decode rest
  | [.unicode a b c d] => utf8 (codeUnit a b c d)
  | .unicode a b c d :: .unicode a' b' c' d' :: rest =>
    if isHighSurrogate (codeUnit a b c d) && isLowSurrogate (codeUnit a' b' c' d') then
      utf8 (0x10000 + 1024 * (codeUnit a b c d - 0xd800) + (codeUnit a' b' c' d' - 0xdc00))
        ++ Key.decode rest
    else utf8 (codeUnit a b c d) ++ Key.decode (.unicode a' b' c' d' :: rest)
  | .unicode a b c d :: x :: rest => utf8 (codeUnit a b c d) ++ Key.decode (x :: rest)

/-! ## Scalars -/

def isDigit (c : Char) : Bool := '0' ≤ c && c ≤ '9'

def Digits (t : Text) : Prop := t ≠ [] ∧ ∀ c ∈ t, isDigit c = true

/-- A number, part by part. -/
structure IsNumber (t : Text) : Prop where
  parts : ∃ sign int frac exp, t = sign ++ (int ++ (frac ++ exp)) ∧
    (sign = [] ∨ sign = ['-']) ∧
    (int = ['0'] ∨ (Digits int ∧ int.head? ≠ some '0')) ∧
    (frac = [] ∨ ∃ ds, frac = '.' :: ds ∧ Digits ds) ∧
    (exp = [] ∨ ∃ e s ds, exp = e :: (s ++ ds) ∧ (e = 'e' ∨ e = 'E') ∧
      (s = [] ∨ s = ['+'] ∨ s = ['-']) ∧ Digits ds)

def IsAtom (t : Text) : Prop :=
  t = lit "true" ∨ t = lit "false" ∨ t = lit "null" ∨ IsNumber t

inductive Scalar where
  | string (chars : Key)
  | atom (text : Text) (h : IsAtom text)

def Scalar.text : Scalar → Text
  | .string chars => Key.text chars
  | .atom text _ => text

/-! ## Trees and their texts -/

mutual

inductive Value where
  | scalar (x : Scalar)
  | array (items : Items)
  | object (members : Members)

inductive Items where
  | nil
  | cons (value : Value) (rest : Items)

inductive Members where
  | nil
  | cons (key : Key) (value : Value) (rest : Members)

end

def Items.isEmpty : Items → Bool
  | .nil => true
  | .cons _ _ => false

def Members.isEmpty : Members → Bool
  | .nil => true
  | .cons _ _ _ => false

def Items.length : Items → Nat
  | .nil => 0
  | .cons _ rest => rest.length + 1

def Members.length : Members → Nat
  | .nil => 0
  | .cons _ _ rest => rest.length + 1

variable {items : Items} {members : Members} {c close : Char} {t t' s u sep : Text} {last : Bool}

theorem Members.length_eq_zero : members.length = 0 ↔ members.isEmpty := by
  cases members <;> simp [Members.length, Members.isEmpty]

/-- What stands behind an entry: nothing behind the last one, else a comma and white space. -/
def Separator (last : Bool) (t : Text) : Prop :=
  if last then t = [] else ∃ b, Blank b ∧ t = ',' :: b

mutual

inductive Value.Spells : Value → Text → Prop
  | scalar (x : Scalar) : Value.Spells (.scalar x) x.text
  | array {items : Items} {b u : Text} : Blank b → Items.Spells items u →
      Value.Spells (.array items) ('[' :: (b ++ (u ++ [']'])))
  | object {members : Members} {b u : Text} : Blank b → Members.Spells members u →
      Value.Spells (.object members) ('\x7b' :: (b ++ (u ++ ['\x7d'])))

inductive Items.Spells : Items → Text → Prop
  | nil : Items.Spells .nil []
  | cons {value : Value} {rest : Items} {s a sep u : Text} : Value.Spells value s → Blank a →
      Separator rest.isEmpty sep → Items.Spells rest u →
      Items.Spells (.cons value rest) (s ++ (a ++ (sep ++ u)))

inductive Members.Spells : Members → Text → Prop
  | nil : Members.Spells .nil []
  | cons {key : Key} {value : Value} {rest : Members} {b b' s a sep u : Text} :
      Blank b → Blank b' → Value.Spells value s → Blank a → Separator rest.isEmpty sep →
      Members.Spells rest u →
      Members.Spells (.cons key value rest)
        (Key.text key ++ (b ++ (':' :: (b' ++ (s ++ (a ++ (sep ++ u)))))))

end

/-- The text of an object, with white space around it. -/
def ObjectText (members : Members) (t : Text) : Prop :=
  ∃ b s b', Blank b ∧ Blank b' ∧ Value.Spells (.object members) s ∧ t = b ++ (s ++ b')

/-! ## Where texts begin and end -/

/-- The text does not begin with white space. -/
def Solid (t : Text) : Prop := ∀ c, t.head? = some c → isBlank c = false

theorem blank_nil : Blank [] := by simp [Blank]

theorem Solid.cons (h : isBlank c = false) (t : Text) : Solid (c :: t) := by
  intro c' hc'
  obtain rfl : c = c' := by simpa using hc'
  exact h

theorem Follow.nil : Follow [] := by simp [Follow]

theorem Follow.cons (h : isDelimiter c) (t : Text) : Follow (c :: t) := by
  intro c' hc'
  obtain rfl : c = c' := by simpa using hc'
  exact h

theorem Follow.blank {b : Text} (hb : Blank b) (h : Follow t) : Follow (b ++ t) := by
  cases b with
  | nil => exact h
  | cons c =>
    refine Follow.cons ?_ _
    simp [isDelimiter, hb c (by simp)]

theorem dropWhile_blank {b : Text} (hb : Blank b) (ht : Solid t) :
    (b ++ t).dropWhile isBlank = t := by
  rw [dropWhile_append_of_pos hb]
  cases t with
  | nil => rfl
  | cons c => exact dropWhile_cons_of_neg (by simp [ht c rfl])

theorem blank_cancel {b b' : Text} (hb : Blank b) (hb' : Blank b') (ht : Solid t) (ht' : Solid t')
    (h : b ++ t = b' ++ t') : t = t' := by
  rw [← dropWhile_blank hb ht, h, dropWhile_blank hb' ht']

/-- The characters of scalars that are not strings. -/
def isAtomChar (c : Char) : Bool :=
  isDigit c || c ∈ ['t', 'r', 'u', 'e', 'f', 'a', 'l', 's', 'n', 'E', '+', '-', '.']

theorem atomChar_of_digit (h : isDigit c) : isAtomChar c := by
  simp [isAtomChar, h]

theorem IsNumber.chars (h : IsNumber t) : ∀ c ∈ t, isAtomChar c := by
  obtain ⟨sign, int, frac, exp, rfl, hsign, hint, hfrac, hexp⟩ := h.parts
  have hdigs : ∀ {ds : Text}, Digits ds → ∀ c ∈ ds, isAtomChar c :=
    fun hds c hc => atomChar_of_digit (hds.2 c hc)
  intro c hc
  rcases mem_append.mp hc with hc | hc
  · rcases hsign with rfl | rfl
    · cases hc
    · rw [mem_singleton.mp hc]; decide
  rcases mem_append.mp hc with hc | hc
  · rcases hint with rfl | hint
    · rw [mem_singleton.mp hc]; decide
    · exact hdigs hint.1 c hc
  rcases mem_append.mp hc with hc | hc
  · rcases hfrac with rfl | ⟨ds, rfl, hds⟩
    · cases hc
    · rcases mem_cons.mp hc with rfl | hc
      · decide
      · exact hdigs hds c hc
  · rcases hexp with rfl | ⟨e, s, ds, rfl, he, hs, hds⟩
    · cases hc
    · rcases mem_cons.mp hc with rfl | hc
      · rcases he with rfl | rfl <;> decide
      rcases mem_append.mp hc with hc | hc
      · rcases hs with rfl | rfl | rfl
        · cases hc
        · rw [mem_singleton.mp hc]; decide
        · rw [mem_singleton.mp hc]; decide
      · exact hdigs hds c hc

theorem IsNumber.ne_nil (h : IsNumber t) : t ≠ [] := by
  obtain ⟨sign, int, frac, exp, rfl, -, hint, -, -⟩ := h.parts
  rcases hint with rfl | hint
  · simp
  · simp [hint.1.1]

theorem IsAtom.chars (h : IsAtom t) : ∀ c ∈ t, isAtomChar c := by
  rcases h with rfl | rfl | rfl | h
  · decide +kernel
  · decide +kernel
  · decide +kernel
  · exact h.chars

theorem IsAtom.ne_nil (h : IsAtom t) : t ≠ [] := by
  rcases h with rfl | rfl | rfl | h
  · simp [lit]
  · simp [lit]
  · simp [lit]
  · exact h.ne_nil

theorem not_delimiter_of_atomChar (h : isAtomChar c) : isDelimiter c = false := by
  rw [← Bool.not_eq_true]
  intro hc
  simp only [isDelimiter, isBlank, Bool.or_eq_true, decide_eq_true_eq] at hc
  rcases hc with (((((rfl | rfl) | rfl) | rfl) | rfl) | rfl) | rfl <;> exact absurd h (by decide)

theorem not_blank_of_not_delimiter (h : isDelimiter c = false) : isBlank c = false := by
  simp only [isDelimiter, Bool.or_eq_false_iff] at h
  exact h.1.1.1

/-- How a scalar begins. -/
theorem Scalar.head (x : Scalar) : ∃ c t, x.text = c :: t ∧ (c = '"' ∨ isAtomChar c) := by
  cases x with
  | string => exact ⟨'"', _, rfl, .inl rfl⟩
  | atom _ h =>
    obtain ⟨c, t, rfl⟩ := exists_cons_of_ne_nil h.ne_nil
    exact ⟨c, t, rfl, .inr (h.chars c (by simp))⟩

/-- How a value begins: with none of the characters that may follow one. -/
theorem Value.Spells.head {v : Value} (h : v.Spells s) :
    ∃ c t, s = c :: t ∧ isDelimiter c = false := by
  cases h with
  | scalar x =>
    obtain ⟨c, t, htext, hc⟩ := x.head
    refine ⟨c, t, htext, ?_⟩
    rcases hc with rfl | hc
    · decide
    · exact not_delimiter_of_atomChar hc
  | array | object => exact ⟨_, _, rfl, by decide⟩

theorem Value.Spells.solid {v : Value} (h : v.Spells s) (t : Text) : Solid (s ++ t) := by
  obtain ⟨c, u, rfl, hc⟩ := h.head
  exact Solid.cons (not_blank_of_not_delimiter hc) _

theorem Items.Spells.solid (h : items.Spells u) (t : Text) : Solid (u ++ ']' :: t) := by
  cases h with
  | nil => exact Solid.cons (by decide) _
  | cons hv =>
    rw [append_assoc]
    exact hv.solid _

theorem Members.Spells.solid (h : members.Spells u) (t : Text) : Solid (u ++ '\x7d' :: t) := by
  cases h with
  | nil | cons => exact Solid.cons (by decide) _

/-! ## A text has one tree -/

theorem StringChar.text_append_inj {x y : StringChar} (h : x.text ++ t = y.text ++ t') :
    x = y ∧ t = t' := by
  cases x with
  | plain c hc =>
    cases y with
    | plain => simpa [StringChar.text] using h
    | escape | unicode =>
      obtain rfl : c = '\\' := (List.cons.inj h).1
      exact absurd hc (by decide)
  | escape c hc =>
    cases y with
    | plain c' hc' =>
      obtain rfl : '\\' = c' := (List.cons.inj h).1
      exact absurd hc' (by decide)
    | escape => simpa [StringChar.text] using h
    | unicode =>
      obtain rfl : c = 'u' := (List.cons.inj (List.cons.inj h).2).1
      exact absurd hc (by decide)
  | unicode =>
    cases y with
    | plain c' hc' =>
      obtain rfl : '\\' = c' := (List.cons.inj h).1
      exact absurd hc' (by decide)
    | escape c' hc' =>
      obtain rfl : 'u' = c' := (List.cons.inj (List.cons.inj h).2).1
      exact absurd hc' (by decide)
    | unicode => simpa [StringChar.text, Subtype.ext_iff, and_assoc] using h

theorem StringChar.text_ne_quote (x : StringChar) : x.text ++ t ≠ '"' :: t' := by
  intro h
  cases x with
  | plain c hc =>
    obtain rfl : c = '"' := (List.cons.inj h).1
    exact absurd hc (by decide)
  | escape | unicode => exact absurd (List.cons.inj h).1 (by decide)

theorem Key.inner_append_inj {key key' : Key}
    (h : inner key ++ '"' :: t = inner key' ++ '"' :: t') : key = key' ∧ t = t' := by
  induction key generalizing key' with
  | nil =>
    cases key' with
    | nil => exact ⟨rfl, (List.cons.inj h).2⟩
    | cons y =>
      simp only [inner, flatMap_nil, nil_append, flatMap_cons, append_assoc] at h
      exact absurd h.symm y.text_ne_quote
  | cons x _ ih =>
    cases key' with
    | nil =>
      simp only [inner, flatMap_nil, nil_append, flatMap_cons, append_assoc] at h
      exact absurd h x.text_ne_quote
    | cons =>
      simp only [inner, flatMap_cons, append_assoc] at h
      obtain ⟨rfl, hrest⟩ := StringChar.text_append_inj h
      obtain ⟨rfl, rfl⟩ := ih hrest
      exact ⟨rfl, rfl⟩

theorem Key.text_append (key : Key) (t : Text) :
    Key.text key ++ t = '"' :: (inner key ++ '"' :: t) := by
  simp [Key.text]

theorem Key.text_append_inj {key key' : Key} (h : Key.text key ++ t = Key.text key' ++ t') :
    key = key' ∧ t = t' := by
  rw [text_append, text_append] at h
  exact inner_append_inj (List.cons.inj h).2

theorem takeWhile_atom {r : Text} (h : IsAtom t) (hr : Follow r) :
    (t ++ r).takeWhile (fun c => !isDelimiter c) = t := by
  rw [takeWhile_append_of_pos]
  · cases r with
    | nil => simp
    | cons c => simp [hr c rfl]
  · intro c hc
    simp [not_delimiter_of_atomChar (h.chars c hc)]

theorem Scalar.text_append_inj {x y : Scalar} {r r' : Text} (hr : Follow r) (hr' : Follow r')
    (h : x.text ++ r = y.text ++ r') : x = y ∧ r = r' := by
  have hquote : ∀ {t : Text}, IsAtom t → ∀ (key : Key) (u u' : Text),
      t ++ u ≠ Key.text key ++ u' := by
    intro t ht key u u' heq
    obtain ⟨c, t, rfl⟩ := exists_cons_of_ne_nil ht.ne_nil
    obtain rfl : c = '"' := (List.cons.inj heq).1
    exact absurd (ht.chars '"' (by simp)) (by decide)
  cases x with
  | string key =>
    cases y with
    | string =>
      obtain ⟨rfl, rfl⟩ := Key.text_append_inj h
      exact ⟨rfl, rfl⟩
    | atom _ ht' => exact absurd h.symm (hquote ht' key _ _)
  | atom t ht =>
    cases y with
    | string key' => exact absurd h (hquote ht key' _ _)
    | atom t' ht' =>
      change t ++ r = t' ++ r' at h
      obtain rfl : t = t' := by rw [← takeWhile_atom ht hr, h, takeWhile_atom ht' hr']
      exact ⟨rfl, append_cancel_left h⟩

theorem Scalar.text_ne_open (x : Scalar) (hc : c = '[' ∨ c = '\x7b') : x.text ++ t ≠ c :: u := by
  intro h
  obtain ⟨c', t', htext, hhead⟩ := x.head
  rw [htext] at h
  obtain rfl : c' = c := (List.cons.inj h).1
  rcases hc with rfl | rfl
  · exact absurd hhead (by decide)
  · exact absurd hhead (by decide)

/-- What follows an entry and its white space, up to the closing bracket. -/
theorem Separator.solid (h : Separator last sep) (hlast : last → u = [])
    (hclose : isBlank close = false) : Solid (sep ++ (u ++ close :: t)) := by
  cases last with
  | true =>
    obtain rfl : sep = [] := h
    rw [hlast rfl]
    exact Solid.cons hclose _
  | false =>
    obtain ⟨b, -, rfl⟩ := h
    exact Solid.cons (by decide) _

theorem Separator.follow (h : Separator last sep) (hlast : last → u = [])
    (hclose : isDelimiter close) : Follow (sep ++ (u ++ close :: t)) := by
  cases last with
  | true =>
    obtain rfl : sep = [] := h
    rw [hlast rfl]
    exact Follow.cons hclose _
  | false =>
    obtain ⟨b, -, rfl⟩ := h
    exact Follow.cons (by decide) _

theorem Items.Spells.eq_nil (h : items.Spells u) (hempty : items.isEmpty) : u = [] := by
  cases h with
  | nil => rfl
  | cons => cases hempty

theorem Members.Spells.eq_nil (h : members.Spells u) (hempty : members.isEmpty) : u = [] := by
  cases h with
  | nil => rfl
  | cons => cases hempty

/-- Two entries end in the same way: both are the last ones, or both have a comma and more entries
    behind them. -/
theorem Separator.cancel {last' : Bool} {sep' u' r r' : Text} (h : Separator last sep)
    (h' : Separator last' sep') (hlast : last → u = []) (hlast' : last' → u' = [])
    (hu : Solid (u ++ close :: r)) (hu' : Solid (u' ++ close :: r')) (hclose : close ≠ ',')
    (heq : sep ++ (u ++ close :: r) = sep' ++ (u' ++ close :: r')) :
    u ++ close :: r = u' ++ close :: r' := by
  cases last with
  | true =>
    obtain rfl : sep = [] := h
    cases last' with
    | true =>
      obtain rfl : sep' = [] := h'
      exact heq
    | false =>
      obtain ⟨b', -, rfl⟩ := h'
      rw [hlast rfl] at heq
      exact absurd (List.cons.inj heq).1 hclose
  | false =>
    obtain ⟨b, hb, rfl⟩ := h
    cases last' with
    | true =>
      obtain rfl : sep' = [] := h'
      rw [hlast' rfl] at heq
      exact absurd (List.cons.inj heq).1.symm hclose
    | false =>
      obtain ⟨b', hb', rfl⟩ := h'
      exact blank_cancel hb hb' hu hu' (List.cons.inj heq).2

theorem Value.Spells.ne_close {v : Value} (h : v.Spells s) (hclose : isDelimiter close) :
    s ++ t ≠ close :: u := by
  intro heq
  obtain ⟨c, s, rfl, hc⟩ := h.head
  rw [(List.cons.inj heq).1, hclose] at hc
  cases hc

mutual

theorem Value.unique : ∀ (v : Value) {v' : Value} {s s' r r' : Text}, v.Spells s → v'.Spells s' →
    Follow r → Follow r' → s ++ r = s' ++ r' → v = v' ∧ r = r'
  | .scalar x, v', s, s', r, r', h, h', hr, hr', heq => by
      cases h
      cases h' with
      | scalar =>
        obtain ⟨rfl, rfl⟩ := Scalar.text_append_inj hr hr' heq
        exact ⟨rfl, rfl⟩
      | array => exact absurd heq (x.text_ne_open (.inl rfl))
      | object => exact absurd heq (x.text_ne_open (.inr rfl))
  | .array items, v', s, s', r, r', h, h', hr, hr', heq => by
      cases h with | array hb hu =>
      cases h' with
      | scalar y => exact absurd heq.symm (y.text_ne_open (.inl rfl))
      | array hb' hu' =>
        simp only [cons_append, append_assoc, nil_append] at heq
        have hitems := blank_cancel hb hb' (hu.solid r) (hu'.solid r') (List.cons.inj heq).2
        obtain ⟨rfl, rfl⟩ := Items.unique items hu hu' hitems
        exact ⟨rfl, rfl⟩
      | object => exact absurd (List.cons.inj heq).1 (by decide)
  | .object members, v', s, s', r, r', h, h', hr, hr', heq => by
      cases h with | object hb hu =>
      cases h' with
      | scalar y => exact absurd heq.symm (y.text_ne_open (.inr rfl))
      | array => exact absurd (List.cons.inj heq).1 (by decide)
      | object hb' hu' =>
        simp only [cons_append, append_assoc, nil_append] at heq
        have hmems := blank_cancel hb hb' (hu.solid r) (hu'.solid r') (List.cons.inj heq).2
        obtain ⟨rfl, rfl⟩ := Members.unique members hu hu' hmems
        exact ⟨rfl, rfl⟩

theorem Items.unique : ∀ (items : Items) {items' : Items} {u u' r r' : Text}, items.Spells u →
    items'.Spells u' → u ++ ']' :: r = u' ++ ']' :: r' → items = items' ∧ r = r'
  | .nil, items', u, u', r, r', h, h', heq => by
      cases h
      cases h' with
      | nil => exact ⟨rfl, (List.cons.inj heq).2⟩
      | cons hv' =>
        rw [append_assoc] at heq
        exact absurd heq.symm (hv'.ne_close (by decide))
  | .cons v rest, items', u, u', r, r', h, h', heq => by
      cases h with | cons hv ha hsep hrest =>
      cases h' with
      | nil =>
        rw [append_assoc] at heq
        exact absurd heq (hv.ne_close (by decide))
      | cons hv' ha' hsep' hrest' =>
        simp only [append_assoc] at heq
        obtain ⟨rfl, hafter⟩ := Value.unique v hv hv'
          (.blank ha (hsep.follow hrest.eq_nil (by decide)))
          (.blank ha' (hsep'.follow hrest'.eq_nil (by decide))) heq
        have htail := blank_cancel ha ha' (hsep.solid hrest.eq_nil (by decide))
          (hsep'.solid hrest'.eq_nil (by decide)) hafter
        obtain ⟨rfl, rfl⟩ := Items.unique rest hrest hrest'
          (hsep.cancel hsep' hrest.eq_nil hrest'.eq_nil (hrest.solid r) (hrest'.solid r')
            (by decide) htail)
        exact ⟨rfl, rfl⟩

theorem Members.unique : ∀ (members : Members) {members' : Members} {u u' r r' : Text},
    members.Spells u → members'.Spells u' → u ++ '\x7d' :: r = u' ++ '\x7d' :: r' →
    members = members' ∧ r = r'
  | .nil, members', u, u', r, r', h, h', heq => by
      cases h
      cases h' with
      | nil => exact ⟨rfl, (List.cons.inj heq).2⟩
      | cons => exact absurd (List.cons.inj heq).1 (by decide)
  | .cons key v rest, members', u, u', r, r', h, h', heq => by
      cases h with | cons hb hb₁ hv ha hsep hrest =>
      cases h' with
      | nil => exact absurd (List.cons.inj heq).1 (by decide)
      | cons hb' hb₁' hv' ha' hsep' hrest' =>
        simp only [append_assoc, cons_append] at heq
        obtain ⟨rfl, hcolon⟩ := Key.text_append_inj heq
        have hval := blank_cancel hb hb' (Solid.cons (by decide) _) (Solid.cons (by decide) _)
          hcolon
        have hval' := blank_cancel hb₁ hb₁' (hv.solid _) (hv'.solid _) (List.cons.inj hval).2
        obtain ⟨rfl, hafter⟩ := Value.unique v hv hv'
          (.blank ha (hsep.follow hrest.eq_nil (by decide)))
          (.blank ha' (hsep'.follow hrest'.eq_nil (by decide))) hval'
        have htail := blank_cancel ha ha' (hsep.solid hrest.eq_nil (by decide))
          (hsep'.solid hrest'.eq_nil (by decide)) hafter
        obtain ⟨rfl, rfl⟩ := Members.unique rest hrest hrest'
          (hsep.cancel hsep' hrest.eq_nil hrest'.eq_nil (hrest.solid r) (hrest'.solid r')
            (by decide) htail)
        exact ⟨rfl, rfl⟩

end

theorem ObjectText.unique {members' : Members} (h : ObjectText members t)
    (h' : ObjectText members' t) : members = members' := by
  obtain ⟨b, s, e, hb, he, hs, rfl⟩ := h
  obtain ⟨b', s', e', hb', he', hs', heq⟩ := h'
  have hfollow : ∀ {e : Text}, Blank e → Follow e := by
    intro e he
    simpa using Follow.blank he Follow.nil
  have hval := blank_cancel hb hb' (hs.solid _) (hs'.solid _) heq
  obtain ⟨hobj, -⟩ := Value.unique _ hs hs' (hfollow he) (hfollow he') hval
  exact Value.object.inj hobj

/-! ## Texts without white space -/

mutual

def Value.compact : Value → Text
  | .scalar x => x.text
  | .array items => '[' :: (items.compact ++ [']'])
  | .object members => '\x7b' :: (members.compact ++ ['\x7d'])

def Items.compact : Items → Text
  | .nil => []
  | .cons v rest => v.compact ++ ((if rest.isEmpty then [] else [',']) ++ rest.compact)

def Members.compact : Members → Text
  | .nil => []
  | .cons key v rest =>
    Key.text key ++ ':' :: (v.compact ++ ((if rest.isEmpty then [] else [',']) ++ rest.compact))

end

theorem compact_separator (last : Bool) : Separator last (if last then [] else [',']) := by
  cases last with
  | true => rfl
  | false => exact ⟨[], blank_nil, rfl⟩

mutual

theorem Value.compact_spells : ∀ v : Value, v.Spells v.compact
  | .scalar x => .scalar x
  | .array items => .array blank_nil items.compact_spells
  | .object members => .object blank_nil members.compact_spells

theorem Items.compact_spells : ∀ items : Items, items.Spells items.compact
  | .nil => .nil
  | .cons v rest => .cons v.compact_spells blank_nil (compact_separator _) rest.compact_spells

theorem Members.compact_spells : ∀ members : Members, members.Spells members.compact
  | .nil => .nil
  | .cons _ v rest => .cons blank_nil blank_nil v.compact_spells blank_nil (compact_separator _)
      rest.compact_spells

end

theorem ObjectText.of_spells (h : (Value.object members).Spells s) : ObjectText members s :=
  ⟨[], s, [], blank_nil, blank_nil, h, by simp⟩

theorem ObjectText.of_compact (h : t = (Value.object members).compact) : ObjectText members t :=
  h ▸ ObjectText.of_spells (Value.object members).compact_spells

/-! ## Objects of scalars -/

def flatMembers : List (Key × Scalar) → Members
  | [] => .nil
  | (key, x) :: rest => .cons key (.scalar x) (flatMembers rest)

/-- The texts of the members with commas between them. -/
theorem flatMembers_spells (entries : List (Key × Scalar)) : (flatMembers entries).Spells
      ([','].intercalate (entries.map fun entry => Key.text entry.1 ++ ':' :: entry.2.text)) := by
  induction entries with
  | nil => exact .nil
  | cons entry entries ih =>
    obtain ⟨key, x⟩ := entry
    cases entries with
    | nil =>
      have hspells : (flatMembers [(key, x)]).Spells _ :=
        .cons blank_nil blank_nil (.scalar x) blank_nil (rfl : Separator true []) .nil
      simpa using hspells
    | cons entry entries =>
      have hsep : Separator (flatMembers (entry :: entries)).isEmpty [','] :=
        ⟨[], blank_nil, rfl⟩
      have hspells : (flatMembers ((key, x) :: entry :: entries)).Spells _ :=
        .cons blank_nil blank_nil (.scalar x) blank_nil hsep ih
      simpa [intercalate_cons_cons] using hspells

/-! ## Texts have no control characters but white space -/

/-- A character that stands in no text. -/
def isForbidden (c : Char) : Bool := c.toNat < 9

theorem not_forbidden_of_blank (h : isBlank c) : isForbidden c = false := by
  simp only [isBlank, Bool.or_eq_true, decide_eq_true_eq] at h
  rcases h with ((rfl | rfl) | rfl) | rfl <;> decide

theorem not_forbidden_of_hex (c : HexDigit) : isForbidden c.val = false := by
  have h := c.property
  simp only [isHex, Bool.or_eq_true, Bool.and_eq_true, decide_eq_true_eq, Char.le_def,
    UInt32.le_iff_toNat_le] at h
  simp only [isForbidden, decide_eq_false_iff_not, Char.toNat]
  have h0 : ('0' : Char).val.toNat = 48 := rfl
  have ha : ('a' : Char).val.toNat = 97 := rfl
  have hA : ('A' : Char).val.toNat = 65 := rfl
  omega

theorem StringChar.not_forbidden (x : StringChar) : ∀ c ∈ x.text, isForbidden c = false := by
  intro c hc
  cases x with
  | plain _ h =>
    rw [mem_singleton.mp hc]
    simp only [isPlain, Bool.and_eq_true, decide_eq_true_eq] at h
    simp only [isForbidden, decide_eq_false_iff_not]
    omega
  | escape _ h =>
    simp only [StringChar.text, mem_cons, not_mem_nil, or_false] at hc
    rcases hc with rfl | rfl
    · decide
    · simp only [isEscape, mem_cons, not_mem_nil, or_false, decide_eq_true_eq] at h
      rcases h with rfl | rfl | rfl | rfl | rfl | rfl | rfl | rfl <;> decide
  | unicode a b c d =>
    simp only [StringChar.text, mem_cons, not_mem_nil, or_false] at hc
    rcases hc with rfl | rfl | rfl | rfl | rfl | rfl
    · decide
    · decide
    · exact not_forbidden_of_hex a
    · exact not_forbidden_of_hex b
    · exact not_forbidden_of_hex c
    · exact not_forbidden_of_hex d

/-- The text has no forbidden character. -/
def Clean (t : Text) : Prop := ∀ c ∈ t, isForbidden c = false

theorem Clean.append (ht : Clean t) (hu : Clean u) : Clean (t ++ u) :=
  forall_mem_append.mpr ⟨ht, hu⟩

theorem Clean.cons (hc : isForbidden c = false) (ht : Clean t) : Clean (c :: t) :=
  forall_mem_cons.mpr ⟨hc, ht⟩

theorem Clean.nil : Clean [] := by simp [Clean]

theorem Blank.clean (h : Blank t) : Clean t :=
  fun c hc => not_forbidden_of_blank (h c hc)

theorem Key.clean (key : Key) : Clean (Key.text key) := by
  refine .cons (by decide) (.append ?_ (.cons (by decide) .nil))
  intro c hc
  obtain ⟨x, -, hx⟩ := mem_flatMap.mp hc
  exact x.not_forbidden c hx

theorem not_forbidden_of_atomChar (h : isAtomChar c) : isForbidden c = false := by
  simp only [isAtomChar, isDigit, Bool.or_eq_true, Bool.and_eq_true, decide_eq_true_eq,
    mem_cons, not_mem_nil, or_false] at h
  rcases h with ⟨h, -⟩ | h
  · have h0 : ('0' : Char).val.toNat = 48 := rfl
    simp only [Char.le_def, UInt32.le_iff_toNat_le] at h
    simp only [isForbidden, decide_eq_false_iff_not, Char.toNat]
    omega
  · rcases h with rfl | rfl | rfl | rfl | rfl | rfl | rfl | rfl | rfl | rfl | rfl | rfl | rfl <;>
      decide

theorem Scalar.clean (x : Scalar) : Clean x.text := by
  cases x with
  | string key => exact Key.clean key
  | atom t h => exact fun c hc => not_forbidden_of_atomChar (h.chars c hc)

theorem Separator.clean (h : Separator last sep) : Clean sep := by
  cases last with
  | true =>
    obtain rfl : sep = [] := h
    exact .nil
  | false =>
    obtain ⟨b, hb, rfl⟩ := h
    exact .cons (by decide) hb.clean

mutual

theorem Value.Spells.clean : ∀ {v : Value} {s : Text}, v.Spells s → Clean s
  | .scalar x, s, h => by
      cases h
      exact x.clean
  | .array items, s, h => by
      cases h with | array hb hu =>
      exact .cons (by decide) (.append hb.clean (.append hu.clean (.cons (by decide) .nil)))
  | .object members, s, h => by
      cases h with | object hb hu =>
      exact .cons (by decide) (.append hb.clean (.append hu.clean (.cons (by decide) .nil)))

theorem Items.Spells.clean : ∀ {items : Items} {u : Text}, items.Spells u → Clean u
  | .nil, u, h => by
      cases h
      exact .nil
  | .cons v rest, u, h => by
      cases h with | cons hv ha hsep hrest =>
      exact .append hv.clean (.append ha.clean (.append hsep.clean hrest.clean))

theorem Members.Spells.clean : ∀ {members : Members} {u : Text}, members.Spells u → Clean u
  | .nil, u, h => by
      cases h
      exact .nil
  | .cons key v rest, u, h => by
      cases h with | cons hb hb' hv ha hsep hrest =>
      exact .append (Key.clean key) (.append hb.clean (.cons (by decide) (.append hb'.clean
        (.append hv.clean (.append ha.clean (.append hsep.clean hrest.clean))))))

end

theorem ObjectText.clean (h : ObjectText members t) : Clean t := by
  obtain ⟨b, s, b', hb, hb', hs, rfl⟩ := h
  exact .append hb.clean (.append hs.clean hb'.clean)

end Json
