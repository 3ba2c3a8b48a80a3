/-
Names made for the generated code may be used in it: whatever the text, the name of a field or a
type is a valid identifier and no keyword, and it stays one when a number is put behind it.

A keyword has lower-case letters only behind its first character (`isLower_of_isKeyword`), so a name
that is put together with an underscore, a digit or a capitalised part is none.
-/
import TypedTables.Naming.Identifier
import TypedTables.Proofs.Naming.Unique

namespace TypedTables.Naming

/-- A name that the generated code may use: a valid identifier that is no keyword. -/
structure IsName (name : String) : Prop where
  identifier : isIdentifier name = true
  notKeyword : isKeyword name = false

/-! ## Characters of words -/

theorem isAlphanum_toLower {c : Char} (h : c.isAlphanum = true) : c.toLower.isAlphanum = true := by
  grind [Char.toLower, Char.isAlphanum, Char.isAlpha, Char.isUpper, Char.isLower, Char.isDigit]

theorem isAlphanum_toUpper {c : Char} (h : c.isAlphanum = true) : c.toUpper.isAlphanum = true := by
  grind [Char.toUpper, Char.isAlphanum, Char.isAlpha, Char.isUpper, Char.isLower, Char.isDigit]

theorem isLower_of_isDigit {c : Char} (h : c.isDigit = true) : c.isLower = false := by
  grind [Char.isDigit, Char.isLower]

theorem isNextChar_of_isAlphanum {c : Char} (h : c.isAlphanum = true) : isNextChar c = true := by
  simp [isNextChar, h]

theorem isFirstChar_of_isNextChar {c : Char} (h : isNextChar c = true) (hd : c.isDigit = false) :
    isFirstChar c = true := by
  simp only [isNextChar, Char.isAlphanum, hd, Bool.or_false] at h
  exact h

theorem isNextChar_of_isFirstChar {c : Char} (h : isFirstChar c = true) : isNextChar c = true := by
  simp only [isFirstChar, isNextChar, Char.isAlphanum, Bool.or_eq_true] at h ⊢
  exact h.imp_left .inl

/-- A word is a non-empty run of letters and digits. -/
theorem mem_wordsFrom : ∀ (current rest : List Char) {w : List Char},
    (∀ c ∈ current, c.isAlphanum = true) → w ∈ wordsFrom current rest →
      w ≠ [] ∧ ∀ c ∈ w, c.isAlphanum = true
  | [], [], w, _, hw => by simp [wordsFrom] at hw
  | p :: ps, [], w, hc, hw => by
    simp only [wordsFrom, List.mem_singleton] at hw
    subst hw
    exact ⟨by simp, fun c h => hc c (by simpa [or_comm] using h)⟩
  | [], c :: rest, w, _, hw => by
    rw [wordsFrom] at hw
    split at hw
    · rename_i h
      exact mem_wordsFrom [c] rest (by simpa using h) hw
    · exact mem_wordsFrom [] rest (by simp) hw
  | p :: ps, c :: rest, w, hc, hw => by
    have hword : (p :: ps).reverse ≠ [] ∧ ∀ d ∈ (p :: ps).reverse, d.isAlphanum = true :=
      ⟨by simp, fun d h => hc d (List.mem_reverse.1 h)⟩
    rw [wordsFrom] at hw
    split at hw
    · rename_i h
      split at hw
      · rcases List.mem_cons.1 hw with rfl | hw
        · exact hword
        · exact mem_wordsFrom [c] rest (by simpa using h) hw
      · exact mem_wordsFrom (c :: p :: ps) rest (List.forall_mem_cons.2 ⟨h, hc⟩) hw
    · rcases List.mem_cons.1 hw with rfl | hw
      · exact hword
      · exact mem_wordsFrom [] rest (by simp) hw

theorem mem_words {cs w : List Char} (h : w ∈ words cs) :
    w ≠ [] ∧ ∀ c ∈ w, c.isAlphanum = true :=
  mem_wordsFrom [] cs (by simp) h

theorem isAlphanum_lowerWord {w : List Char} (h : ∀ c ∈ w, c.isAlphanum = true) :
    ∀ c ∈ lowerWord w, c.isAlphanum = true := by
  intro c hc
  obtain ⟨d, hd, rfl⟩ := List.mem_map.1 hc
  exact isAlphanum_toLower (h d hd)

theorem capitalWord_eq {w : List Char} (hw : w ≠ []) (h : ∀ c ∈ w, c.isAlphanum = true) :
    ∃ c rest, capitalWord w = c :: rest ∧ c.isLower = false ∧
      ∀ d ∈ c :: rest, d.isAlphanum = true := by
  obtain ⟨a, rest, rfl⟩ := List.exists_cons_of_ne_nil hw
  refine ⟨a.toLower.toUpper, rest.map Char.toLower, rfl, Char.isLower_toUpper_eq_false _, ?_⟩
  intro d hd
  have hlower := isAlphanum_lowerWord h
  rcases List.mem_cons.1 hd with rfl | hd
  · exact isAlphanum_toUpper (hlower _ (List.mem_cons_self ..))
  · exact hlower d (List.mem_cons_of_mem _ hd)

theorem mem_intercalate {α : Type} {separator : List α} {c : α} :
    ∀ {parts : List (List α)}, c ∈ separator.intercalate parts →
      c ∈ separator ∨ ∃ part ∈ parts, c ∈ part
  | [], h => by simp [List.intercalate_nil] at h
  | [part], h => by
    rw [List.intercalate_singleton] at h
    exact .inr ⟨part, List.mem_singleton_self _, h⟩
  | part :: next :: parts, h => by
    rw [List.intercalate_cons_cons, List.mem_append, List.mem_append] at h
    rcases h with (h | h) | h
    · exact .inr ⟨part, List.mem_cons_self .., h⟩
    · exact .inl h
    · exact (mem_intercalate h).imp_right fun ⟨q, hq, hc⟩ => ⟨q, List.mem_cons_of_mem _ hq, hc⟩

theorem isNextChar_snakeCase (text : String) :
    ∀ c ∈ (snakeCase text).toList, isNextChar c = true := by
  intro c hc
  rw [toList_snakeCase, snakeChars] at hc
  rcases mem_intercalate hc with h | ⟨part, hpart, h⟩
  · rw [List.mem_singleton.1 h]; decide
  · obtain ⟨w, hw, rfl⟩ := List.mem_map.1 hpart
    exact isNextChar_of_isAlphanum (isAlphanum_lowerWord (mem_words hw).2 c h)

theorem isNextChar_camelCase (text : String) :
    ∀ c ∈ (camelCase text).toList, isNextChar c = true := by
  intro c hc
  rw [toList_camelCase, camelChars] at hc
  obtain ⟨part, hpart, h⟩ := List.mem_flatten.1 hc
  obtain ⟨w, hw, rfl⟩ := List.mem_map.1 hpart
  obtain ⟨d, rest, heq, -, halnum⟩ := capitalWord_eq (mem_words hw).1 (mem_words hw).2
  exact isNextChar_of_isAlphanum (halnum c (heq ▸ h))

theorem exists_not_lower_camelCase {text : String} (h : (camelCase text).isEmpty = false) :
    ∃ c ∈ (camelCase text).toList, c.isLower = false := by
  rw [toList_camelCase, camelChars]
  cases hws : words text.toList with
  | nil => simp [camelCase, camelChars, hws] at h
  | cons w ws =>
    have hw : w ∈ words text.toList := hws ▸ List.mem_cons_self ..
    obtain ⟨c, rest, heq, hlower, -⟩ := capitalWord_eq (mem_words hw).1 (mem_words hw).2
    exact ⟨c, by simp [heq], hlower⟩

/-! ## Identifiers -/

theorem isIdentifier_iff {name : String} : isIdentifier name = true ↔
    ∃ c rest, name.toList = c :: rest ∧ isFirstChar c = true ∧ ∀ d ∈ rest, isNextChar d = true := by
  unfold isIdentifier issue?
  cases name.toList with
  | nil => simp [issueOfChars]
  | cons c rest =>
    simp only [issueOfChars]
    by_cases hc : isFirstChar c = true
    · simp [hc]
    · simp [hc]

theorem ne_empty_of_isIdentifier {name : String} (h : isIdentifier name = true) : name ≠ "" := by
  rintro rfl
  simp [isIdentifier, issue?, issueOfChars] at h

theorem isNextChar_of_isIdentifier {name : String} (h : isIdentifier name = true) :
    ∀ c ∈ name.toList, isNextChar c = true := by
  obtain ⟨c, rest, hname, hc, hrest⟩ := isIdentifier_iff.1 h
  intro d hd
  rw [hname] at hd
  rcases List.mem_cons.1 hd with rfl | hd
  · exact isNextChar_of_isFirstChar hc
  · exact hrest d hd

theorem not_mem_of_isIdentifier {name : String} (h : isIdentifier name = true) {c : Char}
    (hc : isNextChar c = false) : c ∉ name.toList := by
  intro hmem
  rw [isNextChar_of_isIdentifier h c hmem] at hc
  cases hc

theorem isIdentifier_append {name behind : String} (h : isIdentifier name = true)
    (hb : ∀ c ∈ behind.toList, isNextChar c = true) : isIdentifier (name ++ behind) = true := by
  obtain ⟨c, rest, hname, hc, hrest⟩ := isIdentifier_iff.1 h
  refine isIdentifier_iff.2 ⟨c, rest ++ behind.toList, by simp [hname], hc, ?_⟩
  intro d hd
  rcases List.mem_append.1 hd with hd | hd
  · exact hrest d hd
  · exact hb d hd

/-- A non-empty text of letters, digits and underscores lacks at most the guard. -/
theorem isIdentifier_guardDigit {name : String} (hne : name ≠ "")
    (h : ∀ c ∈ name.toList, isNextChar c = true) : isIdentifier (guardDigit name) = true := by
  rw [isIdentifier_iff]
  unfold guardDigit
  cases hname : name.toList with
  | nil => exact absurd (String.toList_inj.1 (by rw [hname]; rfl)) hne
  | cons c rest =>
    rw [hname] at h
    by_cases hd : c.isDigit = true
    · exact ⟨'_', c :: rest, by simp [hd, hname], by decide, h⟩
    · rw [if_neg (by simpa using hd), hname]
      obtain ⟨hc, hrest⟩ := List.forall_mem_cons.1 h
      exact ⟨c, rest, rfl, isFirstChar_of_isNextChar hc (by simpa using hd), hrest⟩

/-! ## Keywords -/

theorem isLower_of_isKeyword {name : String} (h : isKeyword name = true) :
    ∀ c ∈ name.toList.tail, c.isLower = true := by
  have hall : (keywords.all fun k => k.toList.tail.all Char.isLower) = true := by decide
  exact List.all_eq_true.1 (List.all_eq_true.1 hall name (by simpa [isKeyword] using h))

/-- A name with something other than a lower-case letter behind its start is no keyword. -/
theorem isKeyword_append {name behind : String} (hne : name ≠ "")
    (hb : ∃ c ∈ behind.toList, c.isLower = false) : isKeyword (name ++ behind) = false := by
  obtain ⟨c, hc, hlower⟩ := hb
  cases hk : isKeyword (name ++ behind) with
  | false => rfl
  | true =>
    -- the character is behind the first one of a keyword
    have htail : c ∈ (name ++ behind).toList.tail := by
      rw [String.toList_append]
      cases hname : name.toList with
      | nil => exact absurd (String.toList_inj.1 (by rw [hname]; rfl)) hne
      | cons d rest => exact List.mem_append_right _ hc
    rw [isLower_of_isKeyword hk c htail] at hlower
    cases hlower

theorem isName_append {name behind : String} (h : isIdentifier name = true)
    (hb : ∀ c ∈ behind.toList, isNextChar c = true) (hl : ∃ c ∈ behind.toList, c.isLower = false) :
    IsName (name ++ behind) :=
  ⟨isIdentifier_append h hb, isKeyword_append (ne_empty_of_isIdentifier h) hl⟩

theorem isName_guardKeyword {name : String} (h : isIdentifier name = true) :
    IsName (guardKeyword name) := by
  unfold guardKeyword
  split
  · exact isName_append h (List.all_eq_true.1 (by decide)) ⟨'_', by decide, by decide⟩
  · rename_i hk
    exact ⟨h, by simpa using hk⟩

/-! ## Names for columns, types and literals -/

theorem isName_usable {base fallback : String} (hb : ∀ c ∈ base.toList, isNextChar c = true)
    (hf : isIdentifier fallback = true) : IsName (usable base fallback) := by
  unfold usable
  refine isName_guardKeyword ?_
  split
  · exact isIdentifier_guardDigit (ne_empty_of_isIdentifier hf) (isNextChar_of_isIdentifier hf)
  · rename_i hne
    exact isIdentifier_guardDigit (fun h => hne (by rw [h]; rfl)) hb

theorem isName_fieldName (column : String) : IsName (fieldName column) :=
  isName_usable (isNextChar_snakeCase column) (by decide)

theorem isName_typeName (text : String) {fallback : String} (hf : isIdentifier fallback = true) :
    IsName (typeName text fallback) :=
  isName_usable (isNextChar_camelCase text) hf

theorem mem_guardDigit {name : String} {c : Char} (h : c ∈ name.toList) :
    c ∈ (guardDigit name).toList := by
  unfold guardDigit
  split
  · rw [String.toList_append]; exact List.mem_append_right _ h
  · exact h

theorem mem_guardKeyword {name : String} {c : Char} (h : c ∈ name.toList) :
    c ∈ (guardKeyword name).toList := by
  unfold guardKeyword
  split
  · rw [String.toList_append]; exact List.mem_append_left _ h
  · exact h

theorem exists_not_lower_typeName (text : String) {fallback : String}
    (hf : ∃ c ∈ fallback.toList, c.isLower = false) :
    ∃ c ∈ (typeName text fallback).toList, c.isLower = false := by
  have hbase : ∃ c ∈ (if (camelCase text).isEmpty then fallback else camelCase text).toList,
      c.isLower = false := by
    split
    · exact hf
    · rename_i h
      exact exists_not_lower_camelCase (by simpa using h)
  obtain ⟨c, hc, hlower⟩ := hbase
  refine ⟨c, ?_, hlower⟩
  unfold typeName usable
  exact mem_guardKeyword (mem_guardDigit hc)

/-- Numbers put behind a name do not make it a keyword. -/
theorem isName_freeName {base separator : String} (taken : List String) (hb : IsName base)
    (hs : ∀ c ∈ separator.toList, isNextChar c = true) : IsName (freeName base separator taken) := by
  rcases freeName_cases base separator taken with h | ⟨n, h⟩
  · rw [h]; exact hb
  · rw [h, numbered, Nat.toString_eq_repr]
    have hdigit : ∀ c ∈ n.repr.toList, c.isDigit = true := by
      intro c hc
      rw [Nat.toList_repr] at hc
      exact Nat.isDigit_of_mem_toDigits (by decide) (by decide) hc
    refine isName_append (isIdentifier_append hb.identifier hs) ?_ ?_
    · intro c hc
      simp [isNextChar, Char.isAlphanum, hdigit c hc]
    · obtain ⟨c, hc⟩ := List.exists_mem_of_ne_nil _ (show n.repr.toList ≠ [] by
        rw [Nat.toList_repr]; exact Nat.toDigits_ne_nil)
      exact ⟨c, hc, isLower_of_isDigit (hdigit c hc)⟩

end TypedTables.Naming
