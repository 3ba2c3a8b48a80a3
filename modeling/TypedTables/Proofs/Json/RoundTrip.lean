/-
Reading back what the printer wrote, in either style. A value that fits a shape is read from its
text by that shape: the strings come back character by character, the fields of a record by their
names and in declared order, whatever their order in the text. Main statement: `decode_written`.
-/
import Mathlib.Data.List.Forall2
import Mathlib.Tactic.SplitIfs
import TypedTables.Proofs.Entries
import TypedTables.Proofs.Json.Style

namespace TypedTables.Json

open TypedTables.Text TypedTables.Text.Utf8

/-! ## Strings -/

theorem shortMeaning?_of_shortEscape? {c e : Char} (h : shortEscape? c = some e) :
    shortMeaning? e = some c ∧ e ≠ 'u' := by
  unfold shortEscape? at h
  split_ifs at h <;> cases h <;> subst_vars <;> decide

theorem ne_quote_of_shortEscape? {c : Char} (h : shortEscape? c = none) : c ≠ '"' ∧ c ≠ '\\' := by
  constructor <;> rintro rfl <;> cases h

theorem hexValue?_hexDigit : ∀ n < 16, hexValue? (some (hexDigit n)) = some n := by decide

theorem utf8Size_hexDigit : ∀ n < 16, (hexDigit n).utf8Size = 1 := by decide

theorem stringFrom_escapeChar (c : Char) (rest : Symbols) :
    stringFrom .plain ((escapeChar c).map some ++ rest) = prepend c (stringFrom .plain rest) := by
  unfold escapeChar
  cases hs : shortEscape? c with
  | some e =>
    obtain ⟨hmeaning, hu⟩ := shortMeaning?_of_shortEscape? hs
    simp [stringFrom, hu, hmeaning]
  | none =>
    obtain ⟨hquote, hslash⟩ := ne_quote_of_shortEscape? hs
    split
    · rename_i e h
      cases h
    · split
      · rename_i hlow
        -- a control character is written as four hexadecimal digits, the first two of them zero
        have hhigh := hexValue?_hexDigit (c.toNat / 16) (by omega)
        have hrest := hexValue?_hexDigit (c.toNat % 16) (by omega)
        have hbytes : hasFourBytes (some '0' :: some '0' :: some (hexDigit (c.toNat / 16)) ::
            some (hexDigit (c.toNat % 16)) :: rest) = true := by
          simp [hasFourBytes, sizeInBytes, symbolSize, utf8Size_hexDigit (c.toNat / 16) (by omega),
            utf8Size_hexDigit (c.toNat % 16) (by omega), show '0'.utf8Size = 1 from rfl]
        have hvalue : 16 * (16 * (16 * (16 * 0 + 0) + 0) + c.toNat / 16) + c.toNat % 16 = c.toNat := by
          omega
        have hmeaning : unitMeaning none c.toNat = .ok (.inl c) := by
          rw [unitMeaning, if_neg (by omega), if_neg (by omega), Char.ofNat_toNat]
        have hzero : hexValue? (some '0') = some 0 := by decide
        simp only [List.map_cons, List.map_nil, List.cons_append, List.nil_append]
        simp only [stringFrom, if_false, if_true, hbytes, hzero, hhigh, hrest, hvalue,
          hmeaning, show ¬ '\\' = '"' by decide]
      · rename_i hhigh
        simp [stringFrom, hquote, hslash, hhigh]

theorem stringFrom_escape (cs : List Char) (rest : Symbols) :
    stringFrom .plain ((cs.flatMap escapeChar).map some ++ some '"' :: rest) = .ok (cs, rest) := by
  induction cs with
  | nil => simp [stringFrom]
  | cons c cs ih =>
    rw [List.flatMap_cons, List.map_append, List.append_assoc, stringFrom_escapeChar, ih]
    rfl

theorem string_stringChars (s : String) (rest : Symbols) :
    string ((s.toList.flatMap escapeChar).map some ++ some '"' :: rest) = .ok (s, rest) := by
  rw [string, stringFrom_escape]
  simp

/-! ## Values that read back -/

/-- The text of `v`, in either style and whatever stands behind it, is read by a shape as `w`. It
starts neither with a blank nor with what closes a list. -/
structure ReadsAs (depth : Nat) (shape : Shape) (v w : Value) : Prop where
  starts : ∀ style, ∃ c tail, v.written style = c :: tail ∧ isSpace (some c) = false ∧ c ≠ ']'
  reads : ∀ (style : Style) (fuel : Nat) (rest : Symbols), (v.written style).length ≤ fuel →
    EndsNumber rest →
      read fuel depth shape ((v.written style).map some ++ rest) = .ok (w, rest)

/-- A value that a shape reads back from its text. -/
abbrev Reads (depth : Nat) (shape : Shape) (v : Value) : Prop := ReadsAs depth shape v v

/-- As much fuel as a text has characters is enough for one step if there is a character. -/
theorem exists_fuel {c : Char} {tail : List Char} {fuel : Nat} (h : (c :: tail).length ≤ fuel) :
    ∃ n, fuel = n + 1 ∧ tail.length ≤ n := by
  rw [List.length_cons] at h
  exact ⟨fuel - 1, by omega, by omega⟩

theorem ReadsAs.length_pos {depth : Nat} {shape : Shape} {v w : Value} (h : ReadsAs depth shape v w)
    (style : Style) : 1 ≤ (v.written style).length := by
  obtain ⟨c, tail, htext, -⟩ := h.starts style
  rw [htext, List.length_cons]
  omega

/-! ## Scalars -/

theorem reads_string (depth : Nat) (s : String) : Reads depth .string (.string s) where
  starts style := ⟨'"', _, written_string style s, rfl, by decide⟩
  reads style fuel rest hfuel _ := by
    rw [written_string] at hfuel ⊢
    obtain ⟨fuel, rfl, -⟩ := exists_fuel hfuel
    simp only [stringChars, List.map_cons, List.map_append, List.map_nil,
      List.cons_append, List.append_assoc, List.nil_append, read, next_cons (c := some '"') rfl,
      string_stringChars]
    rfl

theorem reads_bool (depth : Nat) (b : Bool) : Reads depth .bool (.bool b) where
  starts style := by
    rw [written_bool]
    cases b <;> exact ⟨_, _, rfl, rfl, by decide⟩
  reads style fuel rest hfuel _ := by
    rw [written_bool] at hfuel ⊢
    cases b with
    | true =>
      obtain ⟨fuel, rfl, -⟩ := exists_fuel hfuel
      simp [boolChars, read, next_cons (c := some 't') rfl, word, yields]
    | false =>
      obtain ⟨fuel, rfl, -⟩ := exists_fuel hfuel
      simp [boolChars, read, next_cons (c := some 'f') rfl, word, yields]

/-- What a number starts with is a minus or a digit, and starts nothing else. -/
theorem ne_of_startsNumber {c d : Char} (h : startsNumber (some c) = true)
    (hd : startsNumber (some d) = false) : c ≠ d := by
  rintro rfl
  rw [h] at hd
  cases hd

theorem isSpace_of_startsNumber {c : Char} (h : startsNumber (some c) = true) :
    isSpace (some c) = false := by
  simp only [isSpace, Bool.or_eq_false_iff, beq_eq_false_iff_ne]
  exact ⟨⟨⟨ne_of_startsNumber h rfl, ne_of_startsNumber h rfl⟩, ne_of_startsNumber h rfl⟩,
    ne_of_startsNumber h rfl⟩

theorem written_int_cons (n : Int) (style : Style) : ∃ c tail,
    (Value.number (.int n)).written style = c :: tail ∧ startsNumber (some c) = true := by
  rw [written_int]
  by_cases h : n < 0
  · exact ⟨'-', _, by rw [intChars, if_pos h]; rfl, rfl⟩
  · obtain ⟨d, ds, hd⟩ := List.exists_cons_of_ne_nil (Nat.toDigits_ne_nil (b := 10) (n := n.natAbs))
    have hdigit : d.isDigit = true := isDigit_of_mem_toDigits d (hd ▸ List.mem_cons_self ..)
    exact ⟨d, ds, by rw [intChars, if_neg h, hd]; rfl, by simp [startsNumber, isDigit, hdigit]⟩

theorem starts_int (n : Int) (style : Style) : ∃ c tail,
    (Value.number (.int n)).written style = c :: tail ∧ isSpace (some c) = false ∧ c ≠ ']' := by
  obtain ⟨c, tail, htext, hc⟩ := written_int_cons n style
  exact ⟨c, tail, htext, isSpace_of_startsNumber hc, ne_of_startsNumber hc rfl⟩

theorem reads_int (depth : Nat) {low high n : Int} (hn : IsKept n) (hlow : low ≤ n) (hhigh : n ≤ high) :
    Reads depth (.int low high) (.number (.int n)) where
  starts := starts_int n
  reads style fuel rest hfuel hrest := by
    obtain ⟨c, tail, htext, hc⟩ := written_int_cons n style
    have hread := number_intChars hn hrest
    rw [← written_int style, htext, List.map_cons, List.cons_append] at hread
    rw [htext] at hfuel ⊢
    obtain ⟨fuel, rfl, -⟩ := exists_fuel hfuel
    simp only [List.map_cons, List.cons_append, read, next_cons (isSpace_of_startsNumber hc), hc,
      if_true, hread, bind, Except.bind, intIn, hlow, hhigh, and_self, pure, Except.pure]

/-! ## Scalars of no given shape -/

theorem reads_any_string (depth : Nat) (s : String) : Reads depth .any (.string s) where
  starts := (reads_string depth s).starts
  reads style fuel rest hfuel _ := by
    rw [written_string] at hfuel ⊢
    obtain ⟨fuel, rfl, -⟩ := exists_fuel hfuel
    simp [stringChars, read, next_cons (c := some '"') rfl, startsNumber, isDigit,
      string_stringChars, bind, Except.bind, pure, Except.pure]

theorem reads_any_bool (depth : Nat) (b : Bool) : Reads depth .any (.bool b) where
  starts := (reads_bool depth b).starts
  reads style fuel rest hfuel _ := by
    rw [written_bool] at hfuel ⊢
    cases b with
    | true =>
      obtain ⟨fuel, rfl, -⟩ := exists_fuel hfuel
      simp [boolChars, read, next_cons (c := some 't') rfl, word, yields]
    | false =>
      obtain ⟨fuel, rfl, -⟩ := exists_fuel hfuel
      simp [boolChars, read, next_cons (c := some 'f') rfl, word, yields]

theorem reads_any_int (depth : Nat) {n : Int} (hn : IsKept n) : Reads depth .any (.number (.int n)) where
  starts := starts_int n
  reads style fuel rest hfuel hrest := by
    obtain ⟨c, tail, htext, hc⟩ := written_int_cons n style
    have hread := number_intChars hn hrest
    rw [← written_int style, htext, List.map_cons, List.cons_append] at hread
    rw [htext] at hfuel ⊢
    obtain ⟨fuel, rfl, -⟩ := exists_fuel hfuel
    have hnull : c ≠ 'n' := ne_of_startsNumber hc rfl
    have htrue : c ≠ 't' := ne_of_startsNumber hc rfl
    have hfalse : c ≠ 'f' := ne_of_startsNumber hc rfl
    simp only [List.map_cons, List.cons_append, read, next_cons (isSpace_of_startsNumber hc),
      Option.some.injEq, hnull, htrue, hfalse, hc, if_false, if_true, hread, bind, Except.bind, pure,
      Except.pure]

/-! ## Lists -/

theorem readItems_written {depth : Nat} {item : Shape} (style above : Style) :
    ∀ {items results : List Value} (first : Bool) (fuel : Nat) (rest : Symbols),
      List.Forall₂ (ReadsAs depth item) items results →
      (writtenItems style first items).length + 1 ≤ fuel →
        readItems fuel depth item first ((writtenItems style first items).map some ++
          (above.gap.map some ++ some ']' :: rest)) = .ok (results, rest)
  | [], _, first, fuel + 1, rest, .nil, _ => by
    rw [writtenItems_nil, List.map_nil, List.nil_append, readItems, nextItem_close]
  | v :: items, w :: results, first, fuel + 1, rest, .cons hv hitems, hfuel => by
    obtain ⟨c, tail, htext, hspace, hclose⟩ := hv.starts style
    have hlength := hv.length_pos style
    simp only [writtenItems_cons, List.length_append] at hfuel
    have hvalue := hv.reads style fuel _ (by omega) (endsNumber_items style above items rest)
    have hrest := readItems_written style above false fuel rest hitems (by omega)
    rw [htext] at hvalue
    simp only [writtenItems_cons, htext, List.map_append, List.append_assoc, List.map_cons,
      List.cons_append] at hvalue ⊢
    rw [readItems, nextItem_lead style first hspace (by simpa using hclose)]
    simp only [hvalue, hrest, bind, Except.bind, pure, Except.pure]

theorem reads_items {depth : Nat} {item : Shape} {items results : List Value}
    (h : List.Forall₂ (ReadsAs depth item) items results) :
    ReadsAs (depth + 1) (.list item) (.array items) (.array results) where
  starts style := by
    obtain ⟨above, htext⟩ := exists_written_array style items
    exact ⟨'[', _, htext, rfl, by decide⟩
  reads style fuel rest hfuel _ := by
    obtain ⟨above, htext⟩ := exists_written_array style items
    rw [htext] at hfuel ⊢
    obtain ⟨fuel, rfl, hrest⟩ := exists_fuel hfuel
    simp only [List.length_append, List.length_singleton] at hrest
    have hread := readItems_written style.inside above true fuel rest h (by omega)
    simp only [List.map_cons, List.map_append, List.cons_append, List.append_assoc, List.map_nil,
      List.nil_append, read, next_cons (c := some '[') rfl, if_true, Nat.add_one_ne_zero, if_false,
      Nat.add_sub_cancel]
    rw [hread]
    rfl

theorem reads_list {depth : Nat} {item : Shape} {items : List Value}
    (h : ∀ v ∈ items, Reads depth item v) : Reads (depth + 1) (.list item) (.array items) :=
  reads_items (List.forall₂_same.2 h)

/-! ## Records -/

theorem member?_eq_none {name : String} {members : Members} (h : name ∉ members.map Prod.fst) :
    member? name members = none :=
  find?_eq_none_iff.2 h

/-- Members under distinct names are collected in the order of the fields they belong to. -/
theorem collect_eq {found : Members} (hnodup : (found.map Prod.fst).Nodup) :
    ∀ {fields : List (String × Shape)} {members : Members}, (∀ m ∈ members, m ∈ found) →
      members.map Prod.fst = fields.map Prod.fst → collect found fields = .ok members
  | [], members, _, hnames => by
    rw [List.map_nil, List.map_eq_nil_iff] at hnames
    rw [hnames, collect]
  | (name, shape) :: fields, [], _, hnames => by cases hnames
  | (name, shape) :: fields, (_, v) :: members, hmem, hnames => by
    rw [List.map_cons, List.map_cons, List.cons.injEq] at hnames
    obtain ⟨rfl, hnames⟩ := hnames
    have hv : member? _ found = some v := find?_of_mem hnodup (hmem _ (List.mem_cons_self ..))
    rw [collect, hv, collect_eq hnodup (fun m hm => hmem m (List.mem_cons_of_mem _ hm)) hnames]

/-- The members of an object and what they are read as by the shapes under their names. -/
abbrev NamedAs (depth : Nat) (fields : List (String × Shape)) (members results : Members) : Prop :=
  List.Forall₂ (fun m r => m.1 = r.1 ∧
    ∃ shape, shapeOf? m.1 fields = some shape ∧ ReadsAs depth shape m.2 r.2) members results

/-- Reading on from a member: what was found stays in front, and the members still to come are put
behind it one by one. -/
theorem readNamed_written {depth : Nat} {fields : List (String × Shape)} {record : Members}
    (style above : Style) : ∀ {members results : Members} (found : Members) (first : Bool) (fuel : Nat)
      (rest : Symbols), NamedAs depth fields members results →
      ((found ++ results).map Prod.fst).Nodup → collect (found ++ results) fields = .ok record →
      (writtenMembers style first members).length + 1 ≤ fuel →
        readNamed fuel depth fields first found ((writtenMembers style first members).map some ++
          (above.gap.map some ++ some '\x7d' :: rest)) = .ok (record, rest)
  | [], _, found, first, fuel + 1, rest, .nil, _, hcollect, _ => by
    rw [List.append_nil] at hcollect
    rw [writtenMembers_nil, List.map_nil, List.nil_append, readNamed, nextName_close]
    simp only [hcollect, bind, Except.bind, pure, Except.pure]
  | (name, v) :: members, (_, w) :: results, found, first, fuel + 1, rest,
      .cons ⟨rfl, shape, hshape, hv⟩ hmembers, hnodup, hcollect, hfuel => by
    simp only [writtenMembers_cons, List.length_append, List.length_cons] at hfuel
    have hnew : member? name found = none := by
      refine member?_eq_none ?_
      rw [List.map_append, List.map_cons] at hnodup
      intro hmem
      exact (List.nodup_append.1 hnodup).2.2 _ hmem _ (List.mem_cons_self ..) rfl
    have hvalue := hv.reads style fuel _ (show (v.written style).length ≤ fuel by omega)
      (endsNumber_members style above members rest)
    have htail := readNamed_written style above (found ++ [(name, w)]) false fuel rest hmembers
      (by simpa using hnodup) (by simpa using hcollect) (by omega)
    simp only [writtenMembers_cons, stringChars, List.map_append, List.map_cons, List.append_assoc,
      List.cons_append, List.nil_append]
    rw [readNamed, nextName_lead]
    simp only [string_stringChars, hshape, hnew, Option.isSome_none, Bool.false_eq_true, if_false,
      colon_cons, read_colonGap, hvalue, htail, bind, Except.bind]

theorem starts_object (members : Members) (style : Style) : ∃ c tail,
    (Value.object members).written style = c :: tail ∧ isSpace (some c) = false ∧ c ≠ ']' := by
  obtain ⟨above, htext⟩ := exists_written_object style members
  exact ⟨'\x7b', _, htext, rfl, by decide⟩

/-- The names of a record may come in any order. -/
theorem reads_named {depth : Nat} {fields : List (String × Shape)} {members results record : Members}
    (h : NamedAs depth fields members results) (hnodup : (results.map Prod.fst).Nodup)
    (hcollect : collect results fields = .ok record) :
    ReadsAs (depth + 1) (.record fields) (.object members) (.object record) where
  starts := starts_object members
  reads style fuel rest hfuel _ := by
    obtain ⟨above, htext⟩ := exists_written_object style members
    rw [htext] at hfuel ⊢
    obtain ⟨fuel, rfl, hrest⟩ := exists_fuel hfuel
    simp only [List.length_append, List.length_singleton] at hrest
    have hread := readNamed_written style.inside above [] true fuel rest h hnodup hcollect (by omega)
    simp only [List.map_cons, List.map_append, List.cons_append, List.append_assoc, List.map_nil,
      List.nil_append, read, next_cons (c := some '\x7b') rfl, if_true, Nat.add_one_ne_zero,
      if_false, Nat.add_sub_cancel, Option.some.injEq, show ¬ '\x7b' = '[' by decide]
    rw [hread]
    rfl

/-- The members of an object under the names of a record's fields, each read back by its shape. -/
abbrev ReadFields (depth : Nat) (fields : List (String × Shape)) (members : Members) : Prop :=
  List.Forall₂ (fun f m => f.1 = m.1 ∧ Reads depth f.2 m.2) fields members

theorem ReadFields.names {depth : Nat} {fields : List (String × Shape)} {members : Members}
    (h : ReadFields depth fields members) : members.map Prod.fst = fields.map Prod.fst := by
  induction h with
  | nil => rfl
  | cons hf _ ih => rw [List.map_cons, List.map_cons, hf.1, ih]

theorem ReadFields.namedAs {depth : Nat} {fields : List (String × Shape)}
    (hnodup : (fields.map Prod.fst).Nodup) : ∀ {todo : List (String × Shape)} {members : Members},
      (∀ f ∈ todo, f ∈ fields) → ReadFields depth todo members → NamedAs depth fields members members
  | [], _, _, .nil => .nil
  | (name, shape) :: todo, (_, v) :: members, hmem, .cons ⟨rfl, hv⟩ h => by
    have hshape : shapeOf? name fields = some shape :=
      find?_of_mem hnodup (hmem _ (List.mem_cons_self ..))
    exact .cons ⟨rfl, shape, hshape, hv⟩
      (namedAs hnodup (fun f hf => hmem f (List.mem_cons_of_mem _ hf)) h)

theorem reads_record {depth : Nat} {fields : List (String × Shape)} {members : Members}
    (hnodup : (fields.map Prod.fst).Nodup) (h : ReadFields depth fields members) :
    Reads (depth + 1) (.record fields) (.object members) := by
  have hmembers : (members.map Prod.fst).Nodup := by rwa [h.names]
  exact reads_named (h.namedAs hnodup fun _ hf => hf) hmembers (collect_eq hmembers (fun _ hm => hm) h.names)

/-! ## Choices -/

theorem reads_bare {depth : Nat} {variants : List (String × Option Shape)} {name : String}
    (h : shapeOf? name variants = some none) : Reads depth (.choice variants) (.string name) where
  starts := (reads_string depth name).starts
  reads style fuel rest hfuel _ := by
    rw [written_string] at hfuel ⊢
    obtain ⟨fuel, rfl, -⟩ := exists_fuel hfuel
    simp only [stringChars, List.map_cons, List.map_append, List.map_nil,
      List.cons_append, List.append_assoc, List.nil_append, read, next_cons (c := some '"') rfl,
      if_true, string_stringChars, h, bind, Except.bind, pure, Except.pure]

theorem reads_tagged {depth : Nat} {variants : List (String × Option Shape)} {name : String}
    {content : Shape} {v : Value} (h : shapeOf? name variants = some (some content))
    (hv : Reads depth content v) : Reads (depth + 1) (.choice variants) (.object [(name, v)]) where
  starts := starts_object [(name, v)]
  reads style fuel rest hfuel _ := by
    obtain ⟨above, htext⟩ := exists_written_object style [(name, v)]
    rw [htext] at hfuel ⊢
    obtain ⟨fuel, rfl, hrest⟩ := exists_fuel hfuel
    simp only [writtenMembers_cons, List.length_append, List.length_cons] at hrest
    have hvalue := hv.reads style.inside fuel (above.gap.map some ++ some '\x7d' :: rest) (by omega)
      (endsNumber_close above (by decide) rest)
    have hname : ∀ tail, next ((style.inside.lead true).map some ++ some '"' :: tail) =
        .ok (some '"', tail) := fun tail => by
      rw [Style.lead, if_pos rfl, List.nil_append, next_gap, next_cons rfl]
    have hclose : closeObject (above.gap.map some ++ some '\x7d' :: rest) = .ok rest := by
      rw [closeObject, next_gap, next_cons rfl]; rfl
    simp only [writtenMembers_cons, writtenMembers_nil, stringChars, List.map_cons, List.map_append,
      List.map_nil, List.cons_append, List.append_assoc, List.nil_append, read,
      next_cons (c := some '\x7b') rfl, if_true, Option.some.injEq, show ¬ '\x7b' = '"' by decide,
      if_false, Nat.add_one_ne_zero, hname, string_stringChars, h, bind, Except.bind, colon_cons,
      read_colonGap, Nat.add_sub_cancel, hvalue, hclose, yields]

/-! ## Whole texts -/

/-- A text is decoded as what its shape reads it as; blanks may stand behind it. -/
theorem decode_written {shape : Shape} {v w : Value} (h : ReadsAs maxDepth shape v w) (style : Style)
    {behind : List Char} (hbehind : behind = [] ∨ behind = ['\n']) :
    decode shape (ofText (String.ofList (v.written style ++ behind))) = .ok w := by
  have htext : ofText (String.ofList (v.written style ++ behind)) =
      (v.written style).map some ++ behind.map some := by
    simp [ofText]
  have hends : EndsNumber (behind.map some) ∧ (skipSpace (behind.map some)).isEmpty = true := by
    rcases hbehind with rfl | rfl
    · exact ⟨trivial, rfl⟩
    · exact ⟨endsNumber_cons (by decide) [], rfl⟩
  have hread := h.reads style (2 * ((v.written style).map some ++ behind.map some).length + 2)
    (behind.map some) (by simp; omega) hends.1
  rw [decode, htext, hread]
  simp only [bind, Except.bind, hends.2, if_true, pure, Except.pure]

/-- Things are made again from the values of a list if each is made again from its value. -/
theorem mapM_map_some {α : Type} {f : Value → Option α} {g : α → Value} (h : ∀ a, f (g a) = some a) :
    ∀ as : List α, (as.map g).mapM f = some as
  | [] => rfl
  | a :: as => by
    rw [List.map_cons, List.mapM_cons, h a, mapM_map_some h as]
    rfl

end TypedTables.Json
