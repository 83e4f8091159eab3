import RegionRules.Proofs.Text.Trimming
import RegionRules.Settings.Version

/-!
# The texts of versions

Which texts give a version is said here without a reader, by what they are made of: digits make a
`Numeral`, a numeral with or without a plus sign a number (`SpellsNumber`), one to three numbers
with points between them a version (`Spells`), and blanks may stand around it (`Writes`).  The
reader accepts just these texts, and what it makes of them is what they write
(`Version.parse_spec`); in particular it reads the text of every version.

The reader goes from the outside in, and so do the lemmas.  It trims the blanks, of which no number
has any (`Text.trim_eq_iff`); it takes the rest apart at the points, of which no number has any
either (`parts_eq_splitOn`); and it adds up the digits of each part from the left, as a numeral is
made (`digitsValue?_eq_some_iff`).
-/

set_option autoImplicit false

namespace RegionRules

namespace Version

/-! ## Numbers -/

/-- Decimal digits, at least one, and the number that they write.  Zeros may stand first. -/
inductive Numeral : List Char → ℕ → Prop
  | digit {d : ℕ} (hd : d < 10) : Numeral [d.digitChar] d
  | snoc {digits : List Char} {n d : ℕ} (h : Numeral digits n) (hd : d < 10) :
      Numeral (digits ++ [d.digitChar]) (n * 10 + d)

/-- A numeral of a number below `2 ^ 32`, with a plus sign before it or without. -/
inductive SpellsNumber : List Char → UInt32 → Prop
  | plain {digits : List Char} {n : UInt32} (h : Numeral digits n.toNat) : SpellsNumber digits n
  | signed {digits : List Char} {n : UInt32} (h : Numeral digits n.toNat) :
      SpellsNumber ('+' :: digits) n

variable {c : Char} {d n : ℕ} {digits part : List Char}

lemma digit_iff_exists_digitChar : '0' ≤ c ∧ c ≤ '9' ↔ ∃ d < 10, c = d.digitChar := by
  change 48 ≤ c.toNat ∧ c.toNat ≤ 57 ↔ _
  constructor
  · intro h
    have hd : c.toNat - 48 < 10 := by omega
    refine ⟨c.toNat - 48, hd, Char.toNat_inj.1 ?_⟩
    rw [Nat.toNat_digitChar_of_lt_ten hd]
    omega
  · rintro ⟨d, hd, rfl⟩
    rw [Nat.toNat_digitChar_of_lt_ten hd]
    omega

namespace Numeral

lemma ne_nil (h : Numeral digits n) : digits ≠ [] := by
  cases h <;> simp

lemma exists_digit (h : Numeral digits n) : ∀ c ∈ digits, ∃ d < 10, c = d.digitChar := by
  induction h with
  | digit hd => exact List.forall_mem_singleton.2 ⟨_, hd, rfl⟩
  | snoc _ hd ih => exact List.forall_mem_append.2 ⟨ih, List.forall_mem_singleton.2 ⟨_, hd, rfl⟩⟩

/-- The digits of a number are a numeral of it. -/
lemma toDigits (n : ℕ) : Numeral (Nat.toDigits 10 n) n := by
  induction n using Nat.strong_induction_on with
  | _ n ih =>
    rw [Nat.toDigits_eq_if (by decide)]
    split_ifs with hn
    · exact .digit hn
    · have h := (ih (n / 10) (by omega)).snoc (Nat.mod_lt n (by decide : 0 < 10))
      rwa [Nat.div_add_mod'] at h

end Numeral

lemma digitsValue?_append (digits : List Char) (c : Char) :
    digitsValue? (digits ++ [c]) = if '0' ≤ c ∧ c ≤ '9' then
      (digitsValue? digits).map fun n => n * 10 + (c.toNat - '0'.toNat) else none := by
  rw [digitsValue?, List.foldl_append]
  rfl

lemma digitsValue?_snoc (digits : List Char) (hd : d < 10) :
    digitsValue? (digits ++ [d.digitChar]) = (digitsValue? digits).map fun n => n * 10 + d := by
  have hvalue : d.digitChar.toNat - '0'.toNat = d := by
    rw [Nat.toNat_digitChar_of_lt_ten hd]
    exact Nat.add_sub_cancel_left 48 d
  rw [digitsValue?_append, if_pos (digit_iff_exists_digitChar.2 ⟨d, hd, rfl⟩), hvalue]

/-- **Digits have the value of which they are a numeral.** -/
lemma digitsValue?_eq_some_iff (hne : digits ≠ []) :
    digitsValue? digits = some n ↔ Numeral digits n := by
  constructor
  · intro h
    -- Without its last digit this is a numeral again, or it was the only digit.
    induction digits using List.reverseRecOn generalizing n with
    | nil => exact absurd rfl hne
    | append_singleton digits c ih =>
      have hc : '0' ≤ c ∧ c ≤ '9' := by
        by_contra hc
        rw [digitsValue?_append, if_neg hc] at h
        cases h
      obtain ⟨d, hd, rfl⟩ := digit_iff_exists_digitChar.1 hc
      rw [digitsValue?_snoc digits hd] at h
      obtain ⟨m, hm, rfl⟩ := Option.map_eq_some_iff.1 h
      by_cases hfirst : digits = []
      · subst hfirst
        cases hm
        rw [Nat.zero_mul, Nat.zero_add]
        exact .digit hd
      · exact .snoc (ih hfirst hm) hd
  · intro h
    clear hne
    induction h with
    | digit hd => exact (digitsValue?_snoc [] hd).trans (by simp [digitsValue?])
    | snoc _ hd ih => rw [digitsValue?_snoc _ hd, ih, Option.map_some]

/-- The number of decimal digits, at least one, if it is below `2 ^ 32`. -/
def ofDigits? (digits : List Char) : Option UInt32 :=
  if digits = [] then none
  else match digitsValue? digits with
    | some n => if n < UInt32.size then some (UInt32.ofNat n) else none
    | none => none

lemma ofDigits?_eq_some_iff {n : UInt32} :
    ofDigits? digits = some n ↔ Numeral digits n.toNat := by
  by_cases hne : digits = []
  · subst hne
    exact ⟨(nomatch ·), fun h => absurd rfl h.ne_nil⟩
  rw [← digitsValue?_eq_some_iff hne, ofDigits?, if_neg hne]
  cases hvalue : digitsValue? digits with
  | none => simp
  | some m =>
    dsimp only
    have hn : n.toNat < UInt32.size := n.toNat_lt
    rw [Option.some_inj]
    split_ifs with hm
    · rw [Option.some_inj, ← UInt32.toNat_inj, UInt32.toNat_ofNat', Nat.mod_eq_of_lt hm]
    · exact ⟨(nomatch ·), fun h => absurd (h ▸ hn) hm⟩

lemma number?_signed (rest : List Char) : number? ('+' :: rest) = ofDigits? rest := rfl

lemma number?_plain (h : part.head? ≠ some '+') : number? part = ofDigits? part := by
  unfold number?
  split
  · exact absurd rfl h
  · rfl

/-- **A part is read as the number that it spells.** -/
lemma number?_eq_some_iff {n : UInt32} : number? part = some n ↔ SpellsNumber part n := by
  constructor
  · intro h
    by_cases hsign : part.head? = some '+'
    · obtain ⟨rest, rfl⟩ := List.head?_eq_some_iff.1 hsign
      rw [number?_signed, ofDigits?_eq_some_iff] at h
      exact .signed h
    · rw [number?_plain hsign, ofDigits?_eq_some_iff] at h
      exact .plain h
  · intro h
    cases h with
    | plain h =>
      have hsign : part.head? ≠ some '+' := by
        intro hsign
        obtain ⟨d, hd, hc⟩ := h.exists_digit _ (List.mem_of_head? hsign)
        interval_cases d <;> cases hc
      rw [number?_plain hsign, ofDigits?_eq_some_iff]
      exact h
    | signed h =>
      rw [number?_signed, ofDigits?_eq_some_iff]
      exact h

namespace SpellsNumber

variable {n : UInt32}

lemma mem_cases (h : SpellsNumber part n) (hc : c ∈ part) :
    c = '+' ∨ ∃ d < 10, c = d.digitChar := by
  cases h with
  | plain h => exact .inr (h.exists_digit c hc)
  | signed h => exact (List.mem_cons.1 hc).imp_right (h.exists_digit c)

lemma isBlank_eq_false (h : SpellsNumber part n) (hc : c ∈ part) : Text.isBlank c = false := by
  obtain rfl | ⟨d, hd, rfl⟩ := h.mem_cases hc
  · decide
  · interval_cases d <;> decide

lemma ne_point (h : SpellsNumber part n) (hc : c ∈ part) : c ≠ '.' := by
  obtain rfl | ⟨d, hd, rfl⟩ := h.mem_cases hc
  · decide
  · interval_cases d <;> decide

end SpellsNumber

/-! ## Parts -/

lemma parts_eq_splitOn (s : List Char) : parts s = s.splitOn '.' := by
  induction s with
  | nil => rfl
  | cons c s ih =>
    rw [parts, List.splitOn_cons_eq_if_modifyHead]
    by_cases hc : c = '.'
    · rw [if_pos hc, if_pos (beq_iff_eq.2 hc), ih]
    · rw [if_neg hc, if_neg (mt beq_iff_eq.1 hc), ← ih]
      cases hparts : parts s with
      | nil => exact absurd (ih ▸ hparts) (List.splitOn_ne_nil _ _)
      | cons part others => rfl

lemma mapM_eq_some_iff {α β : Type} {f : α → Option β} {l : List α} {l' : List β} :
    l.mapM f = some l' ↔ List.Forall₂ (fun a b => f a = some b) l l' := by
  induction l generalizing l' with
  | nil => simp [eq_comm]
  | cons a l ih =>
    simp only [List.mapM_cons, Option.bind_eq_bind, Option.bind_eq_some_iff, ih,
      List.forall₂_cons_left_iff]
    constructor
    · rintro ⟨b, hb, l'', hl, h⟩
      cases h
      exact ⟨b, l'', hb, hl, rfl⟩
    · rintro ⟨b, l'', hb, hl, rfl⟩
      exact ⟨b, hb, l'', hl, rfl⟩

/-! ## Versions -/

/-- One, two or three numbers with points between them, and the version that they write.  Numbers
that are left out are zero. -/
inductive Spells : List Char → Version → Prop
  | one {a : List Char} {major : UInt32} (ha : SpellsNumber a major) : Spells a ⟨major, 0, 0⟩
  | two {a b : List Char} {major minor : UInt32} (ha : SpellsNumber a major)
      (hb : SpellsNumber b minor) : Spells (a ++ '.' :: b) ⟨major, minor, 0⟩
  | three {a b c : List Char} {major minor patch : UInt32} (ha : SpellsNumber a major)
      (hb : SpellsNumber b minor) (hc : SpellsNumber c patch) :
      Spells (a ++ '.' :: b ++ '.' :: c) ⟨major, minor, patch⟩

/-- The text writes the version, with nothing but blanks around it. -/
def Writes (text : String) (v : Version) : Prop :=
  ∃ before body after, text.toList = before ++ body ++ after ∧
    (∀ c ∈ before, Text.isBlank c = true) ∧ (∀ c ∈ after, Text.isBlank c = true) ∧ Spells body v

variable {body : List Char} {text : String} {v : Version}

lemma Spells.isBlank_eq_false (h : Spells body v) : ∀ c ∈ body, Text.isBlank c = false := by
  have hpoint {part : List Char} {n : UInt32} (h : SpellsNumber part n) :
      ∀ c ∈ '.' :: part, Text.isBlank c = false :=
    List.forall_mem_cons.2 ⟨by decide, fun _ => h.isBlank_eq_false⟩
  cases h with
  | one ha => exact fun _ => ha.isBlank_eq_false
  | two ha hb => exact List.forall_mem_append.2 ⟨fun _ => ha.isBlank_eq_false, hpoint hb⟩
  | three ha hb hc =>
    exact List.forall_mem_append.2
      ⟨List.forall_mem_append.2 ⟨fun _ => ha.isBlank_eq_false, hpoint hb⟩, hpoint hc⟩

/-- A text writes a version if what is left of it without blanks around it spells the version. -/
lemma writes_iff_spells_trim : Writes text v ↔ Spells (Text.trim text.toList) v := by
  constructor
  · rintro ⟨before, body, after, htext, hbefore, hafter, h⟩
    have hbody := h.isBlank_eq_false
    have htrim : Text.trim text.toList = body := Text.trim_eq_iff.2
      ⟨before, after, htext, hbefore, hafter, fun c hc => hbody c (List.mem_of_head? hc),
        fun c hc => hbody c (List.mem_of_getLast? hc)⟩
    rwa [htrim]
  · intro h
    obtain ⟨before, after, htext, hbefore, hafter, -, -⟩ :=
      Text.trim_eq_iff.1 (rfl : Text.trim text.toList = _)
    exact ⟨before, _, after, htext, hbefore, hafter, h⟩

/-- The version with the given numbers, of which there are one, two or three. -/
def ofNumbers? : List UInt32 → Option Version
  | [major] => some ⟨major, 0, 0⟩
  | [major, minor] => some ⟨major, minor, 0⟩
  | [major, minor, patch] => some ⟨major, minor, patch⟩
  | _ => none

lemma ofText?_eq (text : String) :
    ofText? text = ((parts (Text.trim text.toList)).mapM number?).bind ofNumbers? := by
  rw [ofText?]
  cases (parts (Text.trim text.toList)).mapM number? with
  | none => rfl
  | some numbers => rcases numbers with _ | ⟨_, _ | ⟨_, _ | ⟨_, _ | _⟩⟩⟩ <;> rfl

lemma point_notMem_of_spellsNumber {pieces : List (List Char)} {numbers : List UInt32}
    (h : List.Forall₂ SpellsNumber pieces numbers) : ∀ piece ∈ pieces, '.' ∉ piece := by
  induction h with
  | nil => exact List.forall_mem_nil _
  | cons hn _ ih => exact List.forall_mem_cons.2 ⟨fun hpoint => hn.ne_point hpoint rfl, ih⟩

/-- Numbers are read from the pieces that spell them, put together with points. -/
lemma mapM_parts_eq_some_iff {numbers : List UInt32} (hne : numbers ≠ []) :
    (parts body).mapM number? = some numbers ↔
      ∃ pieces, List.Forall₂ SpellsNumber pieces numbers ∧ body = ['.'].intercalate pieces := by
  simp only [mapM_eq_some_iff, number?_eq_some_iff, parts_eq_splitOn]
  constructor
  · exact fun h => ⟨_, h, (List.intercalate_splitOn '.').symm⟩
  · rintro ⟨pieces, h, rfl⟩
    have hpieces : pieces ≠ [] := by
      rintro rfl
      exact hne (List.forall₂_nil_left_iff.1 h)
    rwa [List.splitOn_intercalate '.' (point_notMem_of_spellsNumber h) hpieces]

lemma spells_iff : Spells body v ↔ ∃ numbers, ofNumbers? numbers = some v ∧
    ∃ pieces, List.Forall₂ SpellsNumber pieces numbers ∧ body = ['.'].intercalate pieces := by
  constructor
  · intro h
    cases h with
    | one ha => exact ⟨[_], rfl, [_], .cons ha .nil, by simp [List.intercalate]⟩
    | two ha hb =>
      exact ⟨[_, _], rfl, [_, _], .cons ha (.cons hb .nil), by simp [List.intercalate]⟩
    | three ha hb hc =>
      exact ⟨[_, _, _], rfl, [_, _, _], .cons ha (.cons hb (.cons hc .nil)),
        by simp [List.intercalate]⟩
  · -- There are as many pieces as numbers.
    rintro ⟨numbers, hv, pieces, hpieces, rfl⟩
    unfold ofNumbers? at hv
    split at hv
    · cases hv
      obtain _ | ⟨ha, _ | _⟩ := hpieces
      simpa [List.intercalate] using Spells.one ha
    · cases hv
      obtain _ | ⟨ha, _ | ⟨hb, _ | _⟩⟩ := hpieces
      simpa [List.intercalate] using Spells.two ha hb
    · cases hv
      obtain _ | ⟨ha, _ | ⟨hb, _ | ⟨hc, _ | _⟩⟩⟩ := hpieces
      simpa [List.intercalate] using Spells.three ha hb hc
    · cases hv

/-- **A text gives the version that it writes.** -/
lemma ofText?_eq_some_iff : ofText? text = some v ↔ Writes text v := by
  rw [writes_iff_spells_trim, ofText?_eq, Option.bind_eq_some_iff, spells_iff]
  refine exists_congr fun numbers => ?_
  rw [and_comm]
  refine and_congr_right fun hv => mapM_parts_eq_some_iff ?_
  rintro rfl
  cases hv

/-! ## Reading and writing -/

/-- A text is read as the version that it writes. -/
lemma parse_eq_ok_iff : parse text = .ok v ↔ Writes text v := by
  rw [parse, ← ofText?_eq_some_iff]
  cases ofText? text <;> simp

/-- A text that writes no version is reported as it is. -/
lemma parse_eq_error_iff {e : Invalid} :
    parse text = .error e ↔ e = ⟨text⟩ ∧ ∀ v, ¬ Writes text v := by
  simp only [parse, ← ofText?_eq_some_iff]
  cases ofText? text <;> simp [eq_comm]

lemma spellsNumber_toString (n : UInt32) : SpellsNumber (toString n).toList n := by
  have hdigits : (toString n).toList = Nat.toDigits 10 n.toNat := Nat.toList_repr
  rw [hdigits]
  exact .plain (.toDigits n.toNat)

/-- The text of a version writes this version. -/
lemma writes_text (v : Version) : Writes v.text v := by
  refine ⟨[], _, [], ?_, List.forall_mem_nil _, List.forall_mem_nil _,
    .three (spellsNumber_toString v.major) (spellsNumber_toString v.minor)
      (spellsNumber_toString v.patch)⟩
  simp [Version.text, String.toList_append]

/-- **The texts that are versions, and which.**  A text is read as a version just when it writes it:
one, two or three numbers with points between them, each of decimal digits, at least one, that are
worth less than `2 ^ 32`, with at most one plus sign before them; blanks may stand around the whole,
and missing numbers are zero.  Every other text is refused, and reported as it was given.  The text
of a version is read as this version, so a version that was read is found again in its text. -/
theorem parse_spec (text : String) :
    (∀ v, parse text = .ok v ↔ Writes text v) ∧
      (∀ e, parse text = .error e ↔ e = ⟨text⟩ ∧ ∀ v, ¬ Writes text v) ∧
      (∀ v : Version, parse v.text = .ok v) ∧
      (parse text).bind (fun v => parse v.text) = parse text := by
  have hagain (v : Version) : parse v.text = .ok v := parse_eq_ok_iff.2 (writes_text v)
  refine ⟨fun v => parse_eq_ok_iff, fun e => parse_eq_error_iff, hagain, ?_⟩
  cases parse text with
  | error e => rfl
  | ok v =>
    rw [Except.bind]
    exact hagain v

/-- Zeros and a plus sign before the numbers, blanks around them. -/
example : parse "\u2003+007.4294967295\t" = .ok ⟨7, 4294967295, 0⟩ := by decide +kernel

/-- A blank between the numbers, a number that is too large, and one number too many. -/
example : parse "1. 3" = .error ⟨"1. 3"⟩ ∧ parse " 4294967296 " = .error ⟨" 4294967296 "⟩ ∧
    parse "1.2.3.4" = .error ⟨"1.2.3.4"⟩ := by
  decide +kernel

end Version
end RegionRules
