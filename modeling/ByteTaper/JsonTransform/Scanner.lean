import ByteTaper.Library.JsonPath

/-! # Scanning JSON

The scanners of `filter_flat_json.cpp`, which `flat_json.cpp` has as well. The index into the body is
the text that is left, and `none` is `SkipUnsupported`, the only way in which a scanner fails. The
scanners that recur take fuel; what they need is linear in the text.

On the text of a JSON value `consumeJsonValueAny` reads exactly that value (`consume_value`). Strings
are read more freely than JSON allows, and their escapes are not decoded: the character behind a
backslash is taken as it is. -/

namespace ByteTaper.JsonTransform

open Json List Option

def isWhitespace (c : Char) : Bool := c = ' ' || c = '\t' || c = '\n' || c = '\r'

def skipWhitespace (t : Text) : Text := t.dropWhile isWhitespace

def isDigit (c : Char) : Bool := '0' ≤ c && c ≤ '9'

/-! ## Tokens -/

/-- The loop of `parse_json_string_token`: the characters that it writes, and what is left behind the
    closing quote. -/
def readStringToken : Text → Option (Text × Text)
  | [] => none
  | '"' :: rest => some ([], rest)
  | '\\' :: [] => none
  | '\\' :: escaped :: rest => (readStringToken rest).map fun r => (escaped :: r.1, r.2)
  | c :: rest =>
    if c.toNat < 32 then none else (readStringToken rest).map fun r => (c :: r.1, r.2)

def parseJsonStringToken : Text → Option (Text × Text)
  | '"' :: rest => readStringToken rest
  | _ => none

/-- What a buffer of `capacity` bytes holds of the decoded key, its last byte being the terminator. -/
def keyBuffer (capacity : Nat) (decoded : Text) : Text := decoded.take (capacity - 1)

/-- At least one digit, and all that follow. -/
def someDigits : Text → Option Text
  | [] => none
  | c :: rest => if isDigit c then some (rest.dropWhile isDigit) else none

def integerPart : Text → Option Text
  | '0' :: rest => some rest
  | t => someDigits t

def fractionPart : Text → Option Text
  | '.' :: rest => someDigits rest
  | t => some t

def exponentPart : Text → Option Text
  | [] => some []
  | c :: rest =>
    if c = 'e' || c = 'E' then
      match rest with
      | '+' :: digits => someDigits digits
      | '-' :: digits => someDigits digits
      | digits => someDigits digits
    else some (c :: rest)

def parseNumberToken (t : Text) : Option Text := do
  let unsigned := match t with
    | '-' :: rest => rest
    | t => t
  let t ← integerPart unsigned
  let t ← fractionPart t
  exponentPart t

def parseLiteralToken (literal t : Text) : Option Text :=
  if literal.isPrefixOf t then some (t.drop literal.length) else none

/-! ## Values -/

/-- White space, a colon and white space. -/
def skipColon (t : Text) : Option Text :=
  match skipWhitespace t with
  | ':' :: rest => some (skipWhitespace rest)
  | _ => none

mutual

/-- What is left behind the value, and the number of members that were met in it. -/
def consumeJsonValueAny : Nat → Text → Option (Text × Nat)
  | 0, _ => none
  | _ + 1, [] => none
  | fuel + 1, c :: rest =>
    if c = '\x7b' then consumeObjectAny fuel (c :: rest)
    else if c = '[' then consumeArrayAny fuel (c :: rest)
    else if c = '"' then (parseJsonStringToken (c :: rest)).map fun r => (r.2, 0)
    else if c = 't' then (parseLiteralToken (lit "true") (c :: rest)).map fun r => (r, 0)
    else if c = 'f' then (parseLiteralToken (lit "false") (c :: rest)).map fun r => (r, 0)
    else if c = 'n' then (parseLiteralToken (lit "null") (c :: rest)).map fun r => (r, 0)
    else if c = '-' || isDigit c then (parseNumberToken (c :: rest)).map fun r => (r, 0)
    else none

def consumeObjectAny : Nat → Text → Option (Text × Nat)
  | fuel + 1, '\x7b' :: rest =>
    match skipWhitespace rest with
    | '\x7d' :: t => some (t, 0)
    | t => consumeMembersAny fuel t
  | _, _ => none

/-- The loop of `consume_object_any`. -/
def consumeMembersAny : Nat → Text → Option (Text × Nat)
  | 0, _ => none
  | fuel + 1, t => do
      let key ← parseJsonStringToken t
      let t ← skipColon key.2
      let value ← consumeJsonValueAny fuel t
      match skipWhitespace value.1 with
      | ',' :: t =>
        let more ← consumeMembersAny fuel (skipWhitespace t)
        some (more.1, value.2 + more.2 + 1)
      | '\x7d' :: t => some (t, value.2 + 1)
      | _ => none

def consumeArrayAny : Nat → Text → Option (Text × Nat)
  | fuel + 1, '[' :: rest =>
    match skipWhitespace rest with
    | ']' :: t => some (t, 0)
    | t => consumeItemsAny fuel t
  | _, _ => none

/-- The loop of `consume_array_any`. -/
def consumeItemsAny : Nat → Text → Option (Text × Nat)
  | 0, _ => none
  | fuel + 1, t => do
      let value ← consumeJsonValueAny fuel t
      match skipWhitespace value.1 with
      | ',' :: t =>
        let more ← consumeItemsAny fuel (skipWhitespace t)
        some (more.1, value.2 + more.2)
      | ']' :: t => some (t, value.2)
      | _ => none

end

def consumeJsonValueObjectOnly (fuel : Nat) : Text → Option (Text × Nat)
  | '[' :: _ => none
  | t => consumeJsonValueAny fuel t

/-! ## Tokens of JSON texts -/

/-- The characters that `parse_json_string_token` writes for a string: escapes are not decoded. -/
def writtenKey (key : Key) : Text :=
  key.flatMap fun
    | .plain c _ => [c]
    | .escape c _ => [c]
    | .unicode a b c d => ['u', a.val, b.val, c.val, d.val]

variable {c : Char} {t : Text}

theorem readStringToken_plain (h : isPlain c) (t : Text) :
    readStringToken (c :: t) = (readStringToken t).map fun r => (c :: r.1, r.2) := by
  simp only [isPlain, Bool.and_eq_true, decide_eq_true_eq] at h
  obtain ⟨⟨hquote, hslash⟩, hcontrol⟩ := h
  rw [readStringToken.eq_5 c t hquote (by rintro rfl; exact absurd rfl hslash)
    (by intro _ _ hc; exact absurd hc hslash), if_neg (by omega)]

theorem isPlain_of_isHex (h : isHex c) : isPlain c := by
  simp only [isHex, Bool.or_eq_true, Bool.and_eq_true, decide_eq_true_eq, Char.le_def] at h
  have hnat : 32 ≤ c.toNat := by
    rcases h with (⟨h, -⟩ | ⟨h, -⟩) | ⟨h, -⟩ <;> exact Nat.le_trans (by decide) h
  have hquote : c ≠ '"' := by rintro rfl; revert h; decide
  have hslash : c ≠ '\\' := by rintro rfl; revert h; decide
  simp [isPlain, hnat, hquote, hslash]

theorem readStringToken_inner (key : Key) (t : Text) :
    readStringToken (Key.inner key ++ '"' :: t) = some (writtenKey key, t) := by
  induction key with
  | nil => rfl
  | cons x _ ih =>
    simp only [Key.inner, flatMap_cons, append_assoc] at ih ⊢
    cases x with
    | plain c h =>
      simp only [StringChar.text, cons_append, nil_append]
      rw [readStringToken_plain h, ih]
      rfl
    | escape =>
      simp only [StringChar.text, cons_append, nil_append, readStringToken, ih]
      rfl
    | unicode a b c d =>
      simp only [StringChar.text, cons_append, nil_append, readStringToken]
      rw [readStringToken_plain (isPlain_of_isHex a.2), readStringToken_plain (isPlain_of_isHex b.2),
        readStringToken_plain (isPlain_of_isHex c.2), readStringToken_plain (isPlain_of_isHex d.2), ih]
      rfl

theorem parseJsonStringToken_key (key : Key) (t : Text) :
    parseJsonStringToken (Key.text key ++ t) = some (writtenKey key, t) := by
  rw [Key.text_append]
  exact readStringToken_inner key t

/-! ## Numbers and literals of JSON texts -/

/-- The text does not go on with a digit. -/
def NoDigit (t : Text) : Prop := ∀ c, t.head? = some c → isDigit c = false

theorem NoDigit.cons (h : isDigit c = false) (t : Text) : NoDigit (c :: t) := by
  intro c' hc'
  obtain rfl : c = c' := by simpa using hc'
  exact h

theorem isDigit_of_delimiter (h : isDelimiter c) : isDigit c = false := by
  rw [← Bool.not_eq_true]
  intro hdigit
  have := not_delimiter_of_atomChar (atomChar_of_digit hdigit)
  rw [h] at this
  cases this

theorem noDigit_of_follow (h : Follow t) : NoDigit t :=
  fun c hc => isDigit_of_delimiter (h c hc)

theorem dropWhile_digits {ds : Text} (hds : ∀ c ∈ ds, isDigit c) (ht : NoDigit t) :
    (ds ++ t).dropWhile isDigit = t := by
  rw [dropWhile_append_of_pos hds]
  cases t with
  | nil => rfl
  | cons c => exact dropWhile_cons_of_neg (by simp [ht c rfl])

theorem someDigits_append {ds : Text} (hds : Digits ds) (ht : NoDigit t) :
    someDigits (ds ++ t) = some t := by
  obtain ⟨c, ds, rfl⟩ := exists_cons_of_ne_nil hds.1
  have hc : isDigit c := hds.2 c (by simp)
  simp only [cons_append, someDigits, hc, if_true]
  rw [dropWhile_digits (fun c' hc' => hds.2 c' (by simp [hc'])) ht]

theorem integerPart_append {int : Text} (h : int = ['0'] ∨ (Digits int ∧ int.head? ≠ some '0'))
    (ht : NoDigit t) : integerPart (int ++ t) = some t := by
  rcases h with rfl | ⟨hint, hzero⟩
  · rfl
  rw [← someDigits_append hint ht]
  obtain ⟨c, ds, rfl⟩ := exists_cons_of_ne_nil hint.1
  simp only [cons_append, integerPart]
  split
  next h =>
    obtain rfl : c = '0' := (List.cons.inj h).1
    exact absurd rfl hzero
  · rfl

section

variable {exp : Text}
  (h : exp = [] ∨ ∃ e s ds, exp = e :: (s ++ ds) ∧ (e = 'e' ∨ e = 'E') ∧
    (s = [] ∨ s = ['+'] ∨ s = ['-']) ∧ Digits ds)
  (ht : Follow t)

include h ht

theorem exponentPart_append : exponentPart (exp ++ t) = some t := by
  rcases h with rfl | ⟨e, s, ds, rfl, he, hs, hds⟩
  · cases t with
    | nil => rfl
    | cons c =>
      have hc : ¬ (c = 'e' || c = 'E') := by
        intro hc
        have hdelim := ht c rfl
        rcases Bool.or_eq_true_iff.mp hc with hc | hc
        · rw [of_decide_eq_true hc] at hdelim
          cases hdelim
        · rw [of_decide_eq_true hc] at hdelim
          cases hdelim
      exact if_neg hc
  · have hdigs := someDigits_append hds (noDigit_of_follow ht)
    have he : (e = 'e' || e = 'E') := by rcases he with rfl | rfl <;> rfl
    simp only [cons_append, append_assoc, exponentPart, he, if_true]
    rcases hs with rfl | rfl | rfl
    · obtain ⟨c, ds, rfl⟩ := exists_cons_of_ne_nil hds.1
      have hc : isDigit c := hds.2 c (by simp)
      split
      next h => rw [(List.cons.inj h).1] at hc; cases hc
      next h => rw [(List.cons.inj h).1] at hc; cases hc
      · exact hdigs
    · exact hdigs
    · exact hdigs

theorem noDigit_exponent : NoDigit (exp ++ t) ∧ (exp ++ t).head? ≠ some '.' := by
  rcases h with rfl | ⟨e, s, ds, rfl, he, -, -⟩
  · refine ⟨noDigit_of_follow ht, fun hdot => ?_⟩
    exact absurd (ht '.' hdot) (by decide)
  · rcases he with rfl | rfl
    · exact ⟨NoDigit.cons (by decide) _, by simp⟩
    · exact ⟨NoDigit.cons (by decide) _, by simp⟩

end

theorem fractionPart_append {frac : Text} (h : frac = [] ∨ ∃ ds, frac = '.' :: ds ∧ Digits ds)
    (ht : NoDigit t) (hdot : t.head? ≠ some '.') : fractionPart (frac ++ t) = some t := by
  rcases h with rfl | ⟨ds, rfl, hds⟩
  · cases t with
    | nil => rfl
    | cons =>
      simp only [nil_append, fractionPart]
      split
      next h => exact absurd (by rw [h]; rfl) hdot
      · rfl
  · exact someDigits_append hds ht

theorem parseNumberToken_append {n : Text} (h : IsNumber n) (ht : Follow t) :
    parseNumberToken (n ++ t) = some t := by
  obtain ⟨sign, int, frac, exp, rfl, hsign, hint, hfrac, hexp⟩ := h.parts
  obtain ⟨hnoDigit, hdot⟩ := noDigit_exponent hexp ht
  have hfraction := fractionPart_append hfrac hnoDigit hdot
  have hnoDigit' : NoDigit (frac ++ (exp ++ t)) := by
    rcases hfrac with rfl | ⟨ds, rfl, -⟩
    · exact hnoDigit
    · exact NoDigit.cons (by decide) _
  have hinteger := integerPart_append hint hnoDigit'
  have hunsigned : (match sign ++ (int ++ (frac ++ (exp ++ t))) with
      | '-' :: rest => rest
      | t => t) = int ++ (frac ++ (exp ++ t)) := by
    rcases hsign with rfl | rfl
    · split
      next h =>
        rcases hint with rfl | ⟨hint, -⟩
        · cases h
        obtain ⟨c, ds, rfl⟩ := exists_cons_of_ne_nil hint.1
        have hc : isDigit c := hint.2 c (by simp)
        rw [(List.cons.inj h).1] at hc
        cases hc
      · rfl
    · rfl
  simp only [parseNumberToken, append_assoc, hunsigned, hinteger, hfraction, bind_eq_bind,
    bind_some]
  exact exponentPart_append hexp ht

theorem parseLiteralToken_append (literal t : Text) :
    parseLiteralToken literal (literal ++ t) = some t := by
  simp [parseLiteralToken]

/-! ## Values of JSON texts -/

theorem skipWhitespace_blank {b : Text} (hb : Blank b) (ht : Solid t) :
    skipWhitespace (b ++ t) = t :=
  dropWhile_blank hb ht

theorem skipColon_append {b b' : Text} (hb : Blank b) (hb' : Blank b') (ht : Solid t) :
    skipColon (b ++ ':' :: (b' ++ t)) = some t := by
  unfold skipColon
  rw [skipWhitespace_blank hb (Solid.cons (by decide) _)]
  exact congrArg some (skipWhitespace_blank hb' ht)

theorem IsNumber.head (h : IsNumber t) : ∃ c u, t = c :: u ∧ (c = '-' || isDigit c) := by
  obtain ⟨sign, int, frac, exp, rfl, hsign, hint, -, -⟩ := h.parts
  rcases hsign with rfl | rfl
  · rcases hint with rfl | ⟨hint, -⟩
    · exact ⟨_, _, rfl, by decide⟩
    · obtain ⟨c, ds, rfl⟩ := exists_cons_of_ne_nil hint.1
      have hc : isDigit c := hint.2 c (by simp)
      exact ⟨_, _, rfl, by simp [hc]⟩
  · exact ⟨_, _, rfl, by decide⟩

theorem consume_number (h : (c = '-' || isDigit c)) (fuel : Nat) (t : Text) :
    consumeJsonValueAny (fuel + 1) (c :: t) = (parseNumberToken (c :: t)).map fun r => (r, 0) := by
  rw [consumeJsonValueAny]
  -- six other characters are asked for before it
  iterate 6 rw [if_neg (by rintro rfl; revert h; decide)]
  rw [if_pos h]

theorem consume_scalar (x : Scalar) {r : Text} (hr : Follow r) (fuel : Nat) :
    consumeJsonValueAny (fuel + 1) (x.text ++ r) = some (r, 0) := by
  have hlit : ∀ w ∈ [lit "true", lit "false", lit "null"],
      consumeJsonValueAny (fuel + 1) (w ++ r) = some (r, 0) := by
    intro w hw
    have hbranch : consumeJsonValueAny (fuel + 1) (w ++ r) =
        (parseLiteralToken w (w ++ r)).map fun t => (t, 0) := by
      simp only [mem_cons, not_mem_nil, or_false] at hw
      rcases hw with rfl | rfl | rfl <;> simp [consumeJsonValueAny, lit]
    rw [hbranch, parseLiteralToken_append]
    rfl
  cases x with
  | string key =>
    change consumeJsonValueAny (fuel + 1) ('"' :: ((Key.inner key ++ ['"']) ++ r)) = _
    rw [consumeJsonValueAny, if_neg (by decide), if_neg (by decide), if_pos rfl]
    have := parseJsonStringToken_key key r
    rw [Key.text] at this
    simp only [cons_append] at this
    rw [this]
    rfl
  | atom t ht =>
    change consumeJsonValueAny (fuel + 1) (t ++ r) = _
    rcases ht with rfl | rfl | rfl | ht
    iterate 3 exact hlit _ (by simp)
    · obtain ⟨c, u, rfl, hc⟩ := IsNumber.head ht
      have hnumber := parseNumberToken_append ht hr
      rw [cons_append] at hnumber ⊢
      rw [consume_number hc, hnumber]
      rfl

/-- Behind the value of an entry: either it is the last one and the bracket closes, or the comma
    leads to the next entry. -/
theorem skip_separator {last : Bool} {a sep u r : Text} {close : Char} (ha : Blank a)
    (hsep : Separator last sep) (hlast : last → u = []) (hclose : isBlank close = false)
    (hu : Solid (u ++ close :: r)) :
    (last ∧ skipWhitespace (a ++ (sep ++ (u ++ close :: r))) = close :: r) ∨
      (last = false ∧ ∃ t, skipWhitespace (a ++ (sep ++ (u ++ close :: r))) = ',' :: t ∧
        skipWhitespace t = u ++ close :: r) := by
  rw [skipWhitespace_blank ha (hsep.solid hlast hclose)]
  cases last with
  | true =>
    obtain rfl : sep = [] := hsep
    rw [hlast rfl]
    exact .inl ⟨rfl, rfl⟩
  | false =>
    obtain ⟨b, hb, rfl⟩ := hsep
    exact .inr ⟨rfl, b ++ (u ++ close :: r), rfl, skipWhitespace_blank hb hu⟩

theorem consumeObjectAny_spells {members : Members} {b u r : Text} {fuel : Nat} (hb : Blank b)
    (hu : members.Spells u) (h : members.isEmpty = false →
      consumeMembersAny fuel (u ++ '\x7d' :: r) = some (r, members.memberCount)) :
    consumeObjectAny (fuel + 1) ('\x7b' :: (b ++ (u ++ '\x7d' :: r))) =
      some (r, members.memberCount) := by
  rw [consumeObjectAny, skipWhitespace_blank hb (hu.solid r)]
  cases hu with
  | nil => rfl
  | cons => exact h rfl

theorem consumeArrayAny_spells {items : Items} {b u r : Text} {fuel : Nat} (hb : Blank b)
    (hu : items.Spells u) (h : items.isEmpty = false →
      consumeItemsAny fuel (u ++ ']' :: r) = some (r, items.memberCount)) :
    consumeArrayAny (fuel + 1) ('[' :: (b ++ (u ++ ']' :: r))) = some (r, items.memberCount) := by
  rw [consumeArrayAny, skipWhitespace_blank hb (hu.solid r)]
  cases hu with
  | nil => rfl
  | cons hv =>
    have hitems := h rfl
    rw [append_assoc] at hitems ⊢
    split
    next t heq => exact absurd heq (hv.ne_close (by decide))
    · exact hitems

mutual

/-- On the text of a value, exactly that value is read. -/
theorem consume_value : ∀ (v : Value) {s r : Text} {fuel : Nat}, v.Spells s → Follow r →
    2 * s.length + 1 < fuel → consumeJsonValueAny fuel (s ++ r) = some (r, v.memberCount)
  | .scalar x, s, r, fuel + 1, h, hr, hfuel => by
      cases h
      exact consume_scalar x hr fuel
  | .array items, s, r, fuel + 2, h, hr, hfuel => by
      cases h with | @array _ b u hb hu =>
      simp only [length_cons, length_append, length_nil] at hfuel
      simp only [cons_append, append_assoc, nil_append]
      exact consumeArrayAny_spells hb hu fun hne => consume_items items hu hne (by omega)
  | .object members, s, r, fuel + 2, h, hr, hfuel => by
      cases h with | @object _ b u hb hu =>
      simp only [length_cons, length_append, length_nil] at hfuel
      simp only [cons_append, append_assoc, nil_append]
      exact consumeObjectAny_spells hb hu fun hne => consume_members members hu hne (by omega)

theorem consume_items : ∀ (items : Items) {u r : Text} {fuel : Nat}, items.Spells u →
    items.isEmpty = false → 2 * u.length + 2 < fuel →
    consumeItemsAny fuel (u ++ ']' :: r) = some (r, items.memberCount)
  | .cons v rest, u, r, fuel + 1, h, _, hfuel => by
      cases h with | @cons _ _ s a sep u hv ha hsep hrest =>
      obtain ⟨c, t, hhead, -⟩ := hv.head
      have hs : 1 ≤ s.length := by simp [hhead]
      simp only [length_append] at hfuel
      have hval : consumeJsonValueAny fuel (s ++ (a ++ (sep ++ (u ++ ']' :: r)))) = _ :=
        consume_value v hv (.blank ha (hsep.follow hrest.eq_nil (by decide))) (by omega)
      simp only [append_assoc, consumeItemsAny, hval, bind_eq_bind, bind_some]
      rcases skip_separator ha hsep hrest.eq_nil (by decide) (hrest.solid r) with
        ⟨hlast, hskip⟩ | ⟨hlast, t, hskip, hnext⟩
      · rw [hskip]
        cases rest with
        | nil => rfl
        | cons => cases hlast
      · rw [hskip]
        have hmore : consumeItemsAny fuel (u ++ ']' :: r) = _ :=
          consume_items rest hrest hlast (by omega)
        simp only [hnext, hmore, bind_some]
        rfl

theorem consume_members : ∀ (members : Members) {u r : Text} {fuel : Nat}, members.Spells u →
    members.isEmpty = false → 2 * u.length < fuel →
    consumeMembersAny fuel (u ++ '\x7d' :: r) = some (r, members.memberCount)
  | .cons key v rest, u, r, fuel + 1, h, _, hfuel => by
      cases h with | @cons _ _ _ b b' s a sep u hb hb' hv ha hsep hrest =>
      simp only [length_append, length_cons, Key.text] at hfuel
      have hval : consumeJsonValueAny fuel (s ++ (a ++ (sep ++ (u ++ '\x7d' :: r)))) = _ :=
        consume_value v hv (.blank ha (hsep.follow hrest.eq_nil (by decide))) (by omega)
      simp only [append_assoc, cons_append, consumeMembersAny, parseJsonStringToken_key,
        bind_eq_bind, bind_some, skipColon_append hb hb' (hv.solid _), hval]
      rcases skip_separator ha hsep hrest.eq_nil (by decide) (hrest.solid r) with
        ⟨hlast, hskip⟩ | ⟨hlast, t, hskip, hnext⟩
      · rw [hskip]
        cases rest with
        | nil => rfl
        | cons => cases hlast
      · rw [hskip]
        have hmore : consumeMembersAny fuel (u ++ '\x7d' :: r) = _ :=
          consume_members rest hrest hlast (by omega)
        simp only [hnext, hmore, bind_some]
        rfl

end

end ByteTaper.JsonTransform
