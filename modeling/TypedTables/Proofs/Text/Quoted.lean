/-
Quoted texts are read back: whatever stands behind a literal, reading it gives the characters that
were quoted and leaves the rest. So a literal determines its text and where it ends. Inside it every
quote stands behind an odd number of backslashes, and no character is there that cannot be seen. Main
statement: `quoted_literal`.

A text is quoted one character at a time, so each statement comes from one on the three forms that a
character is written in (`encodeChar_cases`).
-/
import Mathlib.Tactic
import Mathlib.Data.Nat.Digits.Defs
import TypedTables.Text.Quoted

namespace TypedTables.Text.Quoted

/-! ## One character -/

/-- A character is written as a letter behind a backslash, as itself, or by its code point. -/
theorem encodeChar_cases (c : Char) :
    (∃ e, shortEscape? c = some e ∧ encodeChar c = ['\\', e]) ∨
      (c ≠ '"' ∧ c ≠ '\\' ∧ isPlain c = true ∧ encodeChar c = [c]) ∨ encodeChar c = codeEscape c := by
  unfold encodeChar
  cases hshort : shortEscape? c with
  | some e => exact .inl ⟨e, rfl, rfl⟩
  | none =>
    refine .inr ?_
    by_cases hplain : isPlain c = true
    · refine .inl ⟨?_, ?_, hplain, if_pos hplain⟩ <;>
      · rintro rfl
        cases hshort
    · exact .inr (if_neg hplain)

theorem shortMeaning?_of_shortEscape? {c e : Char} (h : shortEscape? c = some e) :
    e ≠ 'u' ∧ shortMeaning? e = some c := by
  unfold shortEscape? at h
  split_ifs at h <;> (cases h; subst_vars; decide)

theorem digitChar_of_mem_toDigits {n : Nat} {c : Char} (h : c ∈ Nat.toDigits 16 n) :
    ∃ d < 16, c = Nat.digitChar d := by
  induction n using Nat.strongRecOn with
  | ind n ih =>
    rw [Nat.toDigits_eq_if (by decide)] at h
    split_ifs at h with hn
    · exact ⟨n, hn, List.mem_singleton.1 h⟩
    · rcases List.mem_append.1 h with h | h
      · exact ih (n / 16) (by omega) h
      · exact ⟨n % 16, Nat.mod_lt n (by decide), List.mem_singleton.1 h⟩

/-- A hexadecimal digit is put behind the value so far. -/
theorem readFrom_digitChar {d k : Nat} (hd : d < 16) (hk : k < 6) (n : Nat) (rest : List Char) :
    readFrom (.digits k n) (Nat.digitChar d :: rest) =
      readFrom (.digits (k + 1) (16 * n + d)) rest := by
  have hall : ∀ d < 16, Nat.digitChar d ≠ '\x7d' ∧ hexValue? (Nat.digitChar d) = some d := by decide
  obtain ⟨hne, hvalue⟩ := hall d hd
  rw [readFrom, if_neg hne, if_neg (by omega), hvalue]
  rfl

/-- The digits of a number are read as the number, if there are no more than six. -/
theorem readFrom_toDigits (m : Nat) (hlength : (Nat.toDigits 16 m).length ≤ 6) (rest : List Char) :
    readFrom (.digits 0 0) (Nat.toDigits 16 m ++ rest) =
      readFrom (.digits (Nat.toDigits 16 m).length m) rest := by
  induction m using Nat.strongRecOn generalizing rest with
  | ind m ih =>
    rw [Nat.toDigits_eq_if (by decide)] at hlength ⊢
    split_ifs at hlength ⊢ with hm
    · rw [List.singleton_append, readFrom_digitChar hm (by decide), Nat.mul_zero, Nat.zero_add,
        Nat.zero_add, List.length_singleton]
    · rw [List.length_append, List.length_singleton] at hlength
      rw [List.append_assoc, ih (m / 16) (by omega) (by omega), List.singleton_append,
        readFrom_digitChar (Nat.mod_lt m (by decide)) (by omega), Nat.div_add_mod,
        List.length_append, List.length_singleton]

theorem charOfCode?_toNat (c : Char) : charOfCode? c.toNat = some c := by
  have hvalid : c.toNat.isValidChar := c.valid
  rw [charOfCode?, dif_pos hvalid]
  rfl

theorem length_toDigits_code (c : Char) : (Nat.toDigits 16 c.toNat).length ≤ 6 := by
  have hvalid : c.toNat < 0x110000 := by
    rcases c.valid with h | ⟨-, h⟩
    · exact h.trans (by decide)
    · exact h
  exact Nat.toDigits_length 16 _ 6 (by decide) (hvalid.trans (by decide))

/-- A character that is written is the first one that is read. -/
theorem readFrom_encodeChar (c : Char) (rest : List Char) :
    readFrom .plain (encodeChar c ++ rest) =
      (readFrom .plain rest).map fun (text, tail) => (c :: text, tail) := by
  rcases encodeChar_cases c with ⟨e, he, hform⟩ | ⟨hquote, hback, -, hform⟩ | hform
  · obtain ⟨hne, hmeaning⟩ := shortMeaning?_of_shortEscape? he
    rw [hform]
    simp only [List.cons_append, List.nil_append, readFrom, if_neg hne, hmeaning, Option.bind_some]
    rfl
  · -- a character that stands for itself neither ends the text nor starts an escape
    rw [hform, List.singleton_append, readFrom, if_neg hquote, if_neg hback]
  · have hpos : (Nat.toDigits 16 c.toNat).length ≠ 0 :=
      List.length_eq_zero_iff.not.2 Nat.toDigits_ne_nil
    rw [hform]
    simp only [codeEscape, List.cons_append, List.append_assoc, readFrom]
    rw [readFrom_toDigits _ (length_toDigits_code c)]
    simp [readFrom, charOfCode?_toNat, hpos]

/-! ## Reading a literal -/

theorem read?_literalChars (cs rest : List Char) : read? (literalChars cs ++ rest) = some (cs, rest) := by
  have hplain : readFrom .plain (encode cs ++ '"' :: rest) = some (cs, rest) := by
    induction cs with
    | nil => rfl
    | cons c cs ih =>
      rw [encode, List.flatMap_cons, List.append_assoc, readFrom_encodeChar, ← encode, ih]
      rfl
  rw [literalChars, List.cons_append, List.append_assoc, List.singleton_append, read?, hplain]

/-- What starts with a literal starts with no other one. -/
theorem literalChars_append_inj {cs cs' rest rest' : List Char}
    (h : literalChars cs ++ rest = literalChars cs' ++ rest') : cs = cs' ∧ rest = rest' := by
  have hread := read?_literalChars cs rest
  rw [h, read?_literalChars] at hread
  exact Prod.mk.inj (Option.some.inj hread.symm)

/-! ## Characters of a literal -/

/-- Nothing stands in a literal that cannot be seen on its own. -/
theorem isPlain_of_mem_encodeChar {c d : Char} (h : d ∈ encodeChar c) : isPlain d = true := by
  rcases encodeChar_cases c with ⟨e, he, hform⟩ | ⟨-, -, hplain, hform⟩ | hform
  · have hletter : isPlain e = true := by
      unfold shortEscape? at he
      split_ifs at he <;> (cases he; decide)
    rw [hform] at h
    rcases List.mem_cons.1 h with rfl | h
    · decide
    · rwa [List.mem_singleton.1 h]
  · rw [hform] at h
    rwa [List.mem_singleton.1 h]
  · have hdigits : ∀ d ∈ Nat.toDigits 16 c.toNat, isPlain d = true := by
      intro d hd
      obtain ⟨n, hn, rfl⟩ := digitChar_of_mem_toDigits hd
      have hall : ∀ n < 16, isPlain (Nat.digitChar n) = true := by decide
      exact hall n hn
    have hmarks : ['\\', 'u', '\x7b', '\x7d'].all isPlain = true := by decide
    simp only [List.all_cons, List.all_nil, Bool.and_true, Bool.and_eq_true] at hmarks
    rw [hform, codeEscape] at h
    simp only [List.mem_cons, List.mem_append, List.not_mem_nil, or_false] at h
    rcases h with rfl | rfl | rfl | h | rfl
    · exact hmarks.1
    · exact hmarks.2.1
    · exact hmarks.2.2.1
    · exact hdigits d h
    · exact hmarks.2.2.2

theorem isPlain_of_mem_literalChars {cs : List Char} {d : Char} (h : d ∈ literalChars cs) :
    isPlain d = true := by
  have hquote : isPlain '"' = true := by decide
  simp only [literalChars, List.mem_cons, List.mem_append, List.not_mem_nil, or_false] at h
  rcases h with rfl | h | rfl
  · exact hquote
  · obtain ⟨c, -, h⟩ := List.mem_flatMap.1 h
    exact isPlain_of_mem_encodeChar h
  · exact hquote

/-- The control characters, which are those of the general category Cc. -/
def controlRanges : CharRanges := [(0x0, 0x1F), (0x7F, 0x9F)]

/-- The characters that end a line: four controls between tab and space, U+0085 and the two separators. -/
def lineBreakRanges : CharRanges := [(0xA, 0xD), (0x85, 0x85), (0x2028, 0x2029)]

/-- A character that can be seen on its own is no control and ends no line. -/
theorem not_control_of_isPlain {c : Char} (h : isPlain c = true) :
    controlRanges.contains c = false ∧ lineBreakRanges.contains c = false := by
  have hrange (low high : Nat) (hr : (low, high) ∈ unprintableRanges) (hlow : 0x7F ≤ low) :
      ¬(low ≤ c.toNat ∧ c.toNat ≤ high) := by
    intro hc
    have hunprintable : isUnprintable c = true := CharRanges.contains_iff.2 ⟨_, hr, hc⟩
    rw [isPlain, if_neg (by omega), hunprintable] at h
    cases h
  have hdelete := hrange 0x7F 0xA0 (by decide) (by decide)
  have hseparator := hrange 0x2028 0x202F (by decide) (by decide)
  have hlow : 0x20 ≤ c.toNat := by
    by_contra hlow
    rw [isPlain, if_pos (by omega)] at h
    simp [hlow] at h
  constructor
  · simp only [controlRanges, CharRanges.contains, List.any_cons, List.any_nil, Bool.or_false,
      Bool.or_eq_false_iff, Bool.and_eq_false_iff, decide_eq_false_iff_not]
    omega
  · simp only [lineBreakRanges, CharRanges.contains, List.any_cons, List.any_nil, Bool.or_false,
      Bool.or_eq_false_iff, Bool.and_eq_false_iff, decide_eq_false_iff_not]
    omega

/-! ## Quotes of a literal -/

/-- Whether what stands before a character escapes it, which an odd number of backslashes does. -/
def isEscaped (before : List Char) : Bool :=
  (before.reverse.takeWhile fun c => c == '\\').length % 2 == 1

theorem isEscaped_concat (before : List Char) (c : Char) :
    isEscaped (before ++ [c]) = (c == '\\' && !isEscaped before) := by
  rw [isEscaped, isEscaped, List.reverse_append, List.reverse_singleton, List.singleton_append,
    List.takeWhile_cons]
  by_cases hc : c = '\\'
  · rw [if_pos (by simpa using hc), hc, List.length_cons, beq_self_eq_true, Bool.true_and,
      Bool.eq_iff_iff, Bool.not_eq_true', beq_iff_eq, beq_eq_false_iff_ne]
    omega
  · rw [if_neg (by simpa using hc), beq_eq_false_iff_ne.2 hc]
    rfl

theorem isEscaped_concat_of_ne (before : List Char) {c : Char} (hc : c ≠ '\\') :
    isEscaped (before ++ [c]) = false := by
  rw [isEscaped_concat, beq_eq_false_iff_ne.2 hc, Bool.false_and]

/-- A character that is written escapes nothing behind it. -/
theorem isEscaped_append_encodeChar {before : List Char} (h : isEscaped before = false) (c : Char) :
    isEscaped (before ++ encodeChar c) = false := by
  rcases encodeChar_cases c with ⟨e, -, hform⟩ | ⟨-, hback, -, hform⟩ | hform
  · -- the backslash in front escapes the letter, even if that is a backslash
    rw [hform, List.append_cons, isEscaped_concat, isEscaped_concat, h]
    simp
  · rw [hform, isEscaped_concat_of_ne _ hback]
  · rw [hform, codeEscape, ← List.cons_append, ← List.cons_append, ← List.cons_append,
      ← List.append_assoc, isEscaped_concat_of_ne _ (by decide)]

/-- A quote in a character that is written stands behind a backslash. -/
theorem eq_of_encodeChar_quote {c : Char} {before behind : List Char}
    (h : encodeChar c = before ++ '"' :: behind) : before = ['\\'] := by
  rcases encodeChar_cases c with ⟨e, -, hform⟩ | ⟨hquote, -, -, hform⟩ | hform
  · rw [hform] at h
    rcases List.cons_eq_append_iff.1 h with ⟨-, hall⟩ | ⟨front, rfl, hletter⟩
    · cases hall
    · rcases List.cons_eq_append_iff.1 hletter with ⟨rfl, -⟩ | ⟨front, -, hnone⟩
      · rfl
      · simp at hnone
  · rw [hform] at h
    rcases List.cons_eq_append_iff.1 h with ⟨-, hall⟩ | ⟨front, -, hnone⟩
    · exact absurd (List.cons.inj hall).1.symm hquote
    · simp at hnone
  · have hmem : '"' ∈ codeEscape c := by simp [← hform, h]
    have hdigit : '"' ∉ Nat.toDigits 16 c.toNat := by
      intro h
      obtain ⟨d, hd, hdigit⟩ := digitChar_of_mem_toDigits h
      have hall : ∀ d < 16, '"' ≠ Nat.digitChar d := by decide
      exact hall d hd hdigit
    simp [codeEscape, hdigit] at hmem

/-- Encoded text escapes nothing behind it, and every quote in it is escaped. -/
theorem isEscaped_encode (cs : List Char) : isEscaped (encode cs) = false ∧
    ∀ before behind, encode cs = before ++ '"' :: behind → isEscaped before = true := by
  induction cs using List.reverseRecOn with
  | nil => exact ⟨rfl, by simp [encode]⟩
  | append_singleton cs c ih =>
    obtain ⟨hend, hquotes⟩ := ih
    have happend : encode (cs ++ [c]) = encode cs ++ encodeChar c := by
      rw [encode, List.flatMap_append, List.flatMap_singleton, ← encode]
    rw [happend]
    refine ⟨isEscaped_append_encodeChar hend c, ?_⟩
    intro before behind h
    -- the quote belongs to the last character or to those before it
    rcases List.append_eq_append_iff.1 h with ⟨front, rfl, hlast⟩ | ⟨rest, hfirst, hrest⟩
    · rw [eq_of_encodeChar_quote hlast, isEscaped_concat, hend]
      rfl
    · rcases List.cons_eq_append_iff.1 hrest with ⟨rfl, hlast⟩ | ⟨rest, rfl, -⟩
      · have hlast : encodeChar c = [] ++ '"' :: behind := hlast
        cases eq_of_encodeChar_quote hlast
      · exact hquotes before rest hfirst

end Quoted

open Quoted

/-! ## Quoted texts -/

/-- A literal determines its text. -/
theorem quoted_inj {s t : String} : quoted s = quoted t ↔ s = t := by
  refine ⟨?_, congrArg quoted⟩
  intro h
  have hliterals := congrArg (fun r => r.toList ++ []) h
  simp only [toList_quoted] at hliterals
  exact String.toList_inj.1 (literalChars_append_inj hliterals).1

/-- A quoted text stands between two quotes. The one behind it is not escaped, and any that is inside is.
No control character and no line break is in it. Whatever follows, it is read as the text and as ending
where it ends, so no other literal begins what it begins. -/
theorem quoted_literal (s : String) :
    (∃ body, (quoted s).toList = '"' :: (body ++ ['"']) ∧ isEscaped body = false ∧
      ∀ before behind, body = before ++ '"' :: behind → isEscaped before = true) ∧
    (∀ c ∈ (quoted s).toList,
      controlRanges.contains c = false ∧ lineBreakRanges.contains c = false) ∧
    (∀ rest, read? ((quoted s).toList ++ rest) = some (s.toList, rest)) ∧
    ∀ t rest rest', (quoted s).toList ++ rest = (quoted t).toList ++ rest' → s = t ∧ rest = rest' := by
  obtain ⟨hend, hquotes⟩ := isEscaped_encode s.toList
  refine ⟨⟨encode s.toList, toList_quoted s, hend, hquotes⟩, ?_, ?_, ?_⟩
  · intro c hc
    rw [toList_quoted] at hc
    exact not_control_of_isPlain (isPlain_of_mem_literalChars hc)
  · intro rest
    rw [toList_quoted, read?_literalChars]
  · intro t rest rest' h
    rw [toList_quoted, toList_quoted] at h
    exact (literalChars_append_inj h).imp_left String.toList_inj.1

end TypedTables.Text
