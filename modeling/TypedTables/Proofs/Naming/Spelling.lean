/-
Spelling a name again. The words of a snake-case spelling are those of the text in lower case, so
spelling it in either case gives what the text gives. The camel-case spelling of a text is not always
its own, as words of one letter run together in it: `v_e_c` is spelled `VEC`, and that `Vec`. Its words
in lower case are kept all the same, so a type name spelled in camel case once more belongs to the same
module. Main statements: `words_snakeChars` and `fieldName_camelCase_camelCase`.

A text of letters and digits that starts with no lower-case letter is cut into words at places that
are still boundaries when every word is capitalised (`Breaks`), and a capitalised word has no
boundary inside.
-/
import TypedTables.Proofs.Naming.Identifier

namespace TypedTables.Naming

/-! ## Capitalised words -/

/-- A word as it comes out of a text. -/
def IsWord (w : List Char) : Prop := w ≠ [] ∧ ∀ c ∈ w, c.isAlphanum = true

theorem isUpper_of_isDigit {c : Char} (h : c.isDigit = true) : c.isUpper = false := by
  grind [Char.isDigit, Char.isUpper]

theorem isUpper_of_mem_lowerWord {w : List Char} {c : Char} (h : c ∈ lowerWord w) :
    c.isUpper = false := by
  obtain ⟨d, -, rfl⟩ := List.mem_map.1 h
  exact Char.isUpper_toLower_eq_false d

theorem lowerWord_capitalWord (w : List Char) : lowerWord (capitalWord w) = lowerWord w := by
  cases w with
  | nil => rfl
  | cons c rest => simp [lowerWord, capitalWord]

theorem tail_capitalWord (w : List Char) : (capitalWord w).tail = lowerWord w.tail := by
  cases w <;> rfl

theorem capitalWord_cons (c : Char) (rest : List Char) :
    capitalWord (c :: rest) = c.toUpper :: lowerWord rest := by
  simp [capitalWord, lowerWord]

theorem capitalWord_ne_nil {w : List Char} (h : w ≠ []) : capitalWord w ≠ [] := by
  obtain ⟨c, rest, rfl⟩ := List.exists_cons_of_ne_nil h
  simp [capitalWord_cons]

theorem toUpper_of_isUpper {c : Char} (h : c.isUpper = true) : c.toUpper = c :=
  Char.toUpper_eq_of_not_isLower (Char.not_isLower_of_isUpper h)

theorem exists_getLast?_capitalWord {w : List Char} (h : w ≠ []) :
    ∃ q, (capitalWord w).getLast? = some q :=
  ⟨_, List.getLast?_eq_some_getLast (capitalWord_ne_nil h)⟩

/-- A capitalised word ends in no upper-case letter, unless it is a letter alone. -/
theorem getLast?_capitalWord (front : List Char) (p : Char) (h : front ≠ [] ∨ p.isDigit = true) :
    ∃ q, (capitalWord (front ++ [p])).getLast? = some q ∧ q.isUpper = false := by
  cases front with
  | cons c front =>
    refine ⟨p.toLower, ?_, Char.isUpper_toLower_eq_false p⟩
    rw [List.cons_append, capitalWord_cons, lowerWord, List.map_append, ← List.cons_append,
      List.map_singleton, List.getLast?_concat]
  | nil =>
    have hdigit : p.isDigit = true := by simpa using h
    have hp : p.toUpper = p :=
      Char.toUpper_eq_of_not_isLower (by simp [isLower_of_isDigit hdigit])
    exact ⟨p, by simp [capitalWord_cons, lowerWord, hp], isUpper_of_isDigit hdigit⟩

/-! ## Boundaries -/

/-- A boundary between two words that is one between the capitalised words too: the second starts with
an upper-case letter, and the first ends in none or a lower-case letter follows. -/
def Breaks (w v : List Char) : Prop :=
  ∃ p c rest, (capitalWord w).getLast? = some p ∧ v = c :: rest ∧ c.isUpper = true ∧
    (p.isUpper = false ∨ rest.head?.any Char.isLower = true)

theorem startsWord_iff {p c : Char} {after : Option Char} (hp : p.isAlphanum = true) :
    startsWord p c after = true ↔
      c.isUpper = true ∧ (p.isUpper = false ∨ after.any Char.isLower = true) := by
  have hupper : p.isUpper = false ↔ p.isLower = true ∨ p.isDigit = true := by
    constructor
    · intro h
      simpa [Char.isAlphanum, Char.isAlpha, h] using hp
    · rintro (h | h)
      · simpa using Char.not_isUpper_of_isLower h
      · exact isUpper_of_isDigit h
  simp only [startsWord, Bool.and_eq_true, Bool.or_eq_true]
  rw [← hupper]
  cases p.isUpper <;> simp

/-- The word begun goes on with what stands behind the place read, if that is a lower-case letter. -/
theorem wordsFrom_eq_cons : ∀ (rest : List Char) (p : Char) (ps : List Char), ∃ behind later,
    wordsFrom (p :: ps) rest = ((p :: ps).reverse ++ behind) :: later ∧
      ∀ c, rest.head? = some c → c.isLower = true → behind.head? = some c
  | [], p, ps => ⟨[], [], by simp [wordsFrom], by simp⟩
  | c :: rest, p, ps => by
    rw [wordsFrom]
    split_ifs with halnum hstart
    · refine ⟨[], _, by rw [List.append_nil], ?_⟩
      intro d hd hlower
      cases hd
      simp only [startsWord, Bool.and_eq_true] at hstart
      exact absurd hstart.1 (Char.not_isUpper_of_isLower hlower)
    · obtain ⟨behind, later, hwords, -⟩ := wordsFrom_eq_cons rest c (p :: ps)
      exact ⟨c :: behind, later, by simp [hwords], fun _ hd _ => hd⟩
    · refine ⟨[], _, by rw [List.append_nil], ?_⟩
      intro d hd hlower
      cases hd
      simp [Char.isAlphanum, Char.isAlpha, hlower] at halnum

/-- A text of letters and digits is read into words that break from each other, if the word begun
starts with no lower-case letter. -/
theorem isChain_wordsFrom : ∀ (rest : List Char) (p : Char) (ps : List Char),
    (∀ c ∈ p :: ps ++ rest, c.isAlphanum = true) → ((p :: ps).getLast?.any Char.isLower) = false →
      (wordsFrom (p :: ps) rest).IsChain Breaks
  | [], p, ps, _, _ => by simp [wordsFrom]
  | c :: rest, p, ps, halnum, hfirst => by
    have hp : p.isAlphanum = true := halnum p (by simp)
    have hc : c.isAlphanum = true := halnum c (by simp)
    rw [wordsFrom, if_pos hc]
    split_ifs with hstart
    · obtain ⟨hupper, hcut⟩ := (startsWord_iff hp).1 hstart
      have ih := isChain_wordsFrom rest c [] (fun d hd => halnum d (by simp at hd ⊢; tauto))
        (by simp [Char.not_isLower_of_isUpper hupper])
      obtain ⟨behind, later, hwords, hbehind⟩ := wordsFrom_eq_cons rest c []
      rw [hwords] at ih ⊢
      refine List.isChain_cons_cons.2 ⟨?_, ih⟩
      rw [List.reverse_cons]
      rcases hcut with hnot | hafter
      · -- a lower-case letter is not alone, as no word starts with one
        have hlong : ps.reverse ≠ [] ∨ p.isDigit = true := by
          by_contra hshort
          simp only [ne_eq, List.reverse_eq_nil_iff, not_or, not_not] at hshort
          simp_all [Char.isAlphanum, Char.isAlpha]
        obtain ⟨q, hq, hnotq⟩ := getLast?_capitalWord ps.reverse p hlong
        exact ⟨q, c, behind, hq, rfl, hupper, .inl hnotq⟩
      · have hne : ps.reverse ++ [p] ≠ [] := by simp
        obtain ⟨q, hq⟩ := exists_getLast?_capitalWord hne
        obtain ⟨d, hd, hlower⟩ := (Option.any_eq_true _ _).1 hafter
        exact ⟨q, c, behind, hq, rfl, hupper, .inr (by simp [hbehind d hd hlower, hlower])⟩
    · exact isChain_wordsFrom rest c (p :: ps) (fun d hd => halnum d (by simp at hd ⊢; tauto))
        (by simpa using hfirst)

/-! ## Words of the capitalised words -/

/-- Characters that are no upper-case letters go on with the word. -/
theorem wordsFrom_append : ∀ (tail rest : List Char) (p : Char) (ps : List Char),
    (∀ c ∈ tail, c.isAlphanum = true ∧ c.isUpper = false) →
      wordsFrom (p :: ps) (tail ++ rest) = wordsFrom (tail.reverse ++ p :: ps) rest
  | [], _, _, _, _ => rfl
  | c :: tail, rest, p, ps, h => by
    obtain ⟨hc, htail⟩ := List.forall_mem_cons.1 h
    rw [List.cons_append, wordsFrom, if_pos hc.1, if_neg (by simp [startsWord, hc.2]),
      wordsFrom_append tail rest c (p :: ps) htail, List.reverse_cons, List.append_assoc,
      List.singleton_append]

/-- A run of letters and digits is read to its end, if none behind the first is upper-case. -/
theorem wordsFrom_run {c : Char} {tail : List Char} (hc : c.isAlphanum = true)
    (htail : ∀ d ∈ tail, d.isAlphanum = true ∧ d.isUpper = false) (rest : List Char) :
    wordsFrom [] (c :: tail ++ rest) = wordsFrom (c :: tail).reverse rest := by
  rw [List.cons_append, wordsFrom, if_pos hc, wordsFrom_append tail rest c [] htail, List.reverse_cons]

/-- The end of a text ends a word. -/
theorem wordsFrom_end {w : List Char} (hw : w ≠ []) : wordsFrom w.reverse [] = [w] := by
  obtain ⟨p, ps, hp⟩ := List.exists_cons_of_ne_nil (List.reverse_eq_nil_iff.not.2 hw)
  rw [hp, wordsFrom, ← hp, List.reverse_reverse]

/-- The parts of a capitalised word. -/
theorem capitalWord_cases {w : List Char} (hw : IsWord w) : ∃ c tail, capitalWord w = c :: tail ∧
    c.isAlphanum = true ∧ ∀ d ∈ tail, d.isAlphanum = true ∧ d.isUpper = false := by
  obtain ⟨c, tail, hcapital, -, halnum⟩ := capitalWord_eq hw.1 hw.2
  have htail : tail = lowerWord w.tail := by rw [← tail_capitalWord, hcapital, List.tail_cons]
  obtain ⟨hc, halnum⟩ := List.forall_mem_cons.1 halnum
  exact ⟨c, tail, hcapital, hc, fun d hd => ⟨halnum d hd, isUpper_of_mem_lowerWord (htail ▸ hd)⟩⟩

/-- A capitalised word is read to its end. -/
theorem wordsFrom_capitalWord {w : List Char} (hw : IsWord w) (rest : List Char) :
    wordsFrom [] (capitalWord w ++ rest) = wordsFrom (capitalWord w).reverse rest := by
  obtain ⟨c, tail, hcapital, hc, htail⟩ := capitalWord_cases hw
  rw [hcapital, wordsFrom_run hc htail]

/-- Behind a word another one begins where the two break. -/
theorem wordsFrom_of_breaks {w v : List Char} (hw : IsWord w) (hv : IsWord v) (h : Breaks w v)
    (rest : List Char) : wordsFrom (capitalWord w).reverse (capitalWord v ++ rest) =
      capitalWord w :: wordsFrom [] (capitalWord v ++ rest) := by
  obtain ⟨q, c, behind, hlast, rfl, hupper, hcut⟩ := h
  obtain ⟨ps, hps⟩ := List.getLast?_eq_some_iff.1 hlast
  have hc : c.isAlphanum = true := hv.2 c (List.mem_cons_self ..)
  have hq : q.isAlphanum = true := by
    obtain ⟨d, tail, hcapital, hd, htail⟩ := capitalWord_cases hw
    have hmem : q ∈ d :: tail := by rw [← hcapital, hps]; simp
    rcases List.mem_cons.1 hmem with rfl | hmem
    · exact hd
    · exact (htail q hmem).1
  have hafter : q.isUpper = false ∨ (lowerWord behind ++ rest).head?.any Char.isLower = true := by
    refine hcut.imp_right fun h => ?_
    obtain ⟨d, hd, hlower⟩ := (Option.any_eq_true _ _).1 h
    obtain ⟨behind', rfl⟩ := List.head?_eq_some_iff.1 hd
    simp [lowerWord, Char.isAlpha, hlower]
  rw [capitalWord_cons, toUpper_of_isUpper hupper, hps, List.reverse_append, List.reverse_singleton,
    List.singleton_append, List.cons_append, wordsFrom, wordsFrom, if_pos hc, if_pos hc,
    if_pos ((startsWord_iff hq).2 ⟨hupper, hafter⟩), List.reverse_cons, List.reverse_reverse]

/-- Words that break from each other are read off their capitalised forms in a row. -/
theorem wordsFrom_capitals : ∀ (ws : List (List Char)) (w : List Char), (∀ v ∈ w :: ws, IsWord v) →
    (w :: ws).IsChain Breaks →
      wordsFrom (capitalWord w).reverse (ws.map capitalWord).flatten = (w :: ws).map capitalWord
  | [], w, hws, _ => by
    rw [List.map_nil, List.flatten_nil,
      wordsFrom_end (capitalWord_ne_nil (hws w (List.mem_singleton_self _)).1)]
    rfl
  | v :: ws, w, hws, hchain => by
    obtain ⟨hw, hrest⟩ := List.forall_mem_cons.1 hws
    obtain ⟨hbreaks, hchain⟩ := List.isChain_cons_cons.1 hchain
    have hv := hrest v (List.mem_cons_self ..)
    rw [List.map_cons, List.flatten_cons, wordsFrom_of_breaks hw hv hbreaks, wordsFrom_capitalWord hv,
      wordsFrom_capitals ws v hrest hchain]
    rfl

/-- The words of the camel-case spelling of letters and digits, of which the first is no lower-case
letter, are the words capitalised. -/
theorem words_camelChars {cs : List Char} (halnum : ∀ c ∈ cs, c.isAlphanum = true)
    (hfirst : (cs.head?.any Char.isLower) = false) :
    words (camelChars cs) = (words cs).map capitalWord := by
  cases cs with
  | nil => rfl
  | cons c rest =>
    have hwords : words (c :: rest) = wordsFrom [c] rest := by
      rw [words, wordsFrom, if_pos (halnum c (List.mem_cons_self ..))]
    have hchain := isChain_wordsFrom rest c [] (by simpa using halnum) (by simpa using hfirst)
    obtain ⟨behind, later, hcons, -⟩ := wordsFrom_eq_cons rest c []
    have hall : ∀ w ∈ words (c :: rest), IsWord w := fun w hw => mem_words hw
    rw [camelChars]
    rw [hwords, hcons] at hall ⊢
    rw [hcons] at hchain
    rw [List.map_cons, List.flatten_cons, words, wordsFrom_capitalWord (hall _ (List.mem_cons_self ..)),
      wordsFrom_capitals _ _ hall hchain, List.map_cons]

/-! ## Words of the words in lower case -/

theorem lowerWord_lowerWord (w : List Char) : lowerWord (lowerWord w) = lowerWord w := by
  simp [lowerWord]

theorem capitalWord_lowerWord (w : List Char) : capitalWord (lowerWord w) = capitalWord w := by
  rw [capitalWord, lowerWord_lowerWord, ← capitalWord]

theorem lowerWord_ne_nil {w : List Char} (h : w ≠ []) : lowerWord w ≠ [] :=
  List.map_eq_nil_iff.not.2 h

/-- A word in lower case is read to its end. -/
theorem wordsFrom_lowerWord {w : List Char} (hw : IsWord w) (rest : List Char) :
    wordsFrom [] (lowerWord w ++ rest) = wordsFrom (lowerWord w).reverse rest := by
  obtain ⟨c, tail, hlower⟩ := List.exists_cons_of_ne_nil (lowerWord_ne_nil hw.1)
  have halnum := isAlphanum_lowerWord hw.2
  have hupper : ∀ d ∈ lowerWord w, d.isUpper = false := fun d hd => isUpper_of_mem_lowerWord hd
  rw [hlower] at halnum hupper ⊢
  refine wordsFrom_run (halnum c (List.mem_cons_self ..)) (fun d hd => ?_) rest
  exact ⟨halnum d (List.mem_cons_of_mem _ hd), hupper d (List.mem_cons_of_mem _ hd)⟩

/-- An underscore ends a word. -/
theorem wordsFrom_underscore {w : List Char} (hw : w ≠ []) (rest : List Char) :
    wordsFrom w.reverse ('_' :: rest) = w :: wordsFrom [] rest := by
  obtain ⟨p, ps, hp⟩ := List.exists_cons_of_ne_nil (List.reverse_eq_nil_iff.not.2 hw)
  rw [hp, wordsFrom, if_neg (by decide), ← hp, List.reverse_reverse]

/-- Words in lower case are read off the text that joins them with underscores. -/
theorem words_intercalate : ∀ ws : List (List Char), (∀ w ∈ ws, IsWord w) →
    words (['_'].intercalate (ws.map lowerWord)) = ws.map lowerWord
  | [], _ => rfl
  | [w], hws => by
    have hw := hws w (List.mem_singleton_self _)
    have hend := wordsFrom_lowerWord hw []
    rw [List.append_nil, wordsFrom_end (lowerWord_ne_nil hw.1)] at hend
    rw [List.map_singleton, List.intercalate_singleton, words, hend]
  | w :: v :: ws, hws => by
    obtain ⟨hw, hrest⟩ := List.forall_mem_cons.1 hws
    have ih := words_intercalate (v :: ws) hrest
    rw [words, List.map_cons] at ih
    rw [List.map_cons, List.map_cons, List.intercalate_cons_cons, words, List.append_assoc,
      wordsFrom_lowerWord hw, List.singleton_append, wordsFrom_underscore (lowerWord_ne_nil hw.1), ih]

/-- The words of the snake-case spelling are the words in lower case. -/
theorem words_snakeChars (cs : List Char) : words (snakeChars cs) = (words cs).map lowerWord :=
  words_intercalate (words cs) fun _ hw => mem_words hw

/-- The snake-case spelling is spelled like itself. -/
theorem snakeCase_snakeCase (text : String) : snakeCase (snakeCase text) = snakeCase text := by
  rw [← String.toList_inj, toList_snakeCase, toList_snakeCase, snakeChars, words_snakeChars,
    List.map_map, snakeChars]
  congr 1
  exact List.map_congr_left fun w _ => lowerWord_lowerWord w

/-- The snake-case spelling has the camel-case spelling of the text. -/
theorem camelCase_snakeCase (text : String) : camelCase (snakeCase text) = camelCase text := by
  rw [← String.toList_inj, toList_camelCase, toList_snakeCase, camelChars, words_snakeChars,
    List.map_map, toList_camelCase, camelChars]
  congr 1
  exact List.map_congr_left fun w _ => capitalWord_lowerWord w

/-! ## Type names -/

theorem camelChars_cases (cs : List Char) : (∀ c ∈ camelChars cs, c.isAlphanum = true) ∧
    ((camelChars cs).head?.any Char.isLower) = false := by
  rw [camelChars]
  constructor
  · intro c hc
    obtain ⟨part, hpart, hc⟩ := List.mem_flatten.1 hc
    obtain ⟨w, hw, rfl⟩ := List.mem_map.1 hpart
    obtain ⟨d, rest, hcapital, -, halnum⟩ := capitalWord_eq (mem_words hw).1 (mem_words hw).2
    exact halnum c (hcapital ▸ hc)
  · cases hwords : words cs with
    | nil => rfl
    | cons w later =>
      have hw := mem_words (hwords ▸ List.mem_cons_self .. : w ∈ words cs)
      obtain ⟨d, rest, hcapital, hlower, -⟩ := capitalWord_eq hw.1 hw.2
      simp [hcapital, hlower]

theorem snakeChars_camelChars_camelChars (cs : List Char) :
    snakeChars (camelChars (camelChars cs)) = snakeChars (camelChars cs) := by
  obtain ⟨halnum, hfirst⟩ := camelChars_cases cs
  rw [snakeChars, words_camelChars halnum hfirst, List.map_map, snakeChars]
  congr 1
  exact List.map_congr_left fun w _ => lowerWord_capitalWord w

/-- The snake-case spelling of a type name is that of the type name spelled in camel case again. -/
theorem snakeCase_camelCase_camelCase (text : String) :
    snakeCase (camelCase (camelCase text)) = snakeCase (camelCase text) := by
  rw [← String.toList_inj, toList_snakeCase, toList_camelCase, toList_camelCase,
    snakeChars_camelChars_camelChars, toList_snakeCase, toList_camelCase]

theorem fieldName_camelCase_camelCase (text : String) :
    fieldName (camelCase (camelCase text)) = fieldName (camelCase text) := by
  rw [fieldName, snakeCase_camelCase_camelCase, fieldName]

/-- A type name that is an identifier starts with an upper-case letter. -/
theorem exists_upper_of_isIdentifier {text : String} (h : isIdentifier (camelCase text) = true) :
    ∃ c rest, (camelCase text).toList = c :: rest ∧ c.isUpper = true := by
  obtain ⟨c, rest, hname, hc, -⟩ := isIdentifier_iff.1 h
  obtain ⟨halnum, hfirst⟩ := camelChars_cases text.toList
  rw [← toList_camelCase, hname] at halnum hfirst
  refine ⟨c, rest, hname, ?_⟩
  have hc' : c.isAlphanum = true := halnum c (List.mem_cons_self ..)
  have hne : c ≠ '_' := by
    rintro rfl
    exact absurd hc' (by decide)
  have hlower : c.isLower = false := by simpa using hfirst
  simpa [isFirstChar, Char.isAlpha, hlower, hne] using hc

/-- A type name that is an identifier is one when it is spelled in camel case again. -/
theorem isIdentifier_camelCase {text : String} (h : isIdentifier (camelCase text) = true) :
    isIdentifier (camelCase (camelCase text)) = true := by
  obtain ⟨c, rest, hname, hupper⟩ := exists_upper_of_isIdentifier h
  obtain ⟨behind, later, hcons, -⟩ := wordsFrom_eq_cons rest c []
  have hc : c.isAlphanum = true := by simp [Char.isAlphanum, Char.isAlpha, hupper]
  have hspelled : (camelCase (camelCase text)).toList =
      c :: (lowerWord behind ++ (later.map capitalWord).flatten) := by
    rw [toList_camelCase, hname, camelChars, words, wordsFrom, if_pos hc, hcons, List.map_cons,
      List.flatten_cons, List.reverse_singleton, List.singleton_append, capitalWord_cons,
      toUpper_of_isUpper hupper, List.cons_append]
  have hnext := isNextChar_camelCase (camelCase text)
  rw [hspelled] at hnext
  exact isIdentifier_iff.2 ⟨c, _, hspelled, by simp [isFirstChar, Char.isAlpha, hupper],
    (List.forall_mem_cons.1 hnext).2⟩

/-! ## Module names -/

theorem mem_guards {name : String} {c : Char} (h : c ∈ (guardKeyword (guardDigit name)).toList) :
    c ∈ name.toList ∨ c = '_' := by
  have hscore : ("_" : String).toList = ['_'] := rfl
  unfold guardKeyword guardDigit at h
  split_ifs at h <;> grind [String.toList_append]

theorem isUpper_of_mem_snakeCase {text : String} {c : Char} (h : c ∈ (snakeCase text).toList) :
    c.isUpper = false := by
  rw [toList_snakeCase, snakeChars] at h
  rcases mem_intercalate h with h | ⟨part, hpart, h⟩
  · rw [List.mem_singleton.1 h]; decide
  · obtain ⟨w, -, rfl⟩ := List.mem_map.1 hpart
    exact isUpper_of_mem_lowerWord h

/-- No name of a field or a module has an upper-case letter. -/
theorem isUpper_of_mem_fieldName {column : String} {c : Char} (h : c ∈ (fieldName column).toList) :
    c.isUpper = false := by
  have hfallback : ("field".toList.all fun d => !d.isUpper) = true := by decide
  rw [fieldName, usable] at h
  rcases mem_guards h with h | rfl
  · split_ifs at h
    · simpa using List.all_eq_true.1 hfallback c h
    · exact isUpper_of_mem_snakeCase h
  · decide

end TypedTables.Naming
