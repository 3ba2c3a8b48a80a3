/-
Free objects. Adding a member keeps the names ascending, a new name is one more member, and a name
behind all others goes to the end. So the members of an object with ascending names are read back in
their order when the reader adds them one by one. Main statement: `reads_members`.
-/
import TypedTables.Proofs.Json.RoundTrip

namespace TypedTables.Json

open TypedTables.Text.Utf8

/-- Members under ascending names; no two of the names are equal. -/
def Ascending (members : Members) : Prop := (members.map Prod.fst).Pairwise (· < ·)

variable {name : String} {value : Value}

theorem Ascending.nil : Ascending [] := List.Pairwise.nil

theorem Ascending.nodup {members : Members} (h : Ascending members) :
    (members.map Prod.fst).Nodup := by
  refine List.Pairwise.imp ?_ h
  rintro a b hlt rfl
  exact String.lt_irrefl a hlt

/-! ## Adding members -/

theorem mem_names_insertMember {other : String} : ∀ {members : Members},
    other ∈ (insertMember name value members).map Prod.fst ↔
      other = name ∨ other ∈ members.map Prod.fst
  | [] => by simp [insertMember]
  | (n, v) :: rest => by
    rw [insertMember]
    split
    · simp
    · split
      · rename_i heq
        simp [heq]
      · simp only [List.map_cons, List.mem_cons, mem_names_insertMember, or_left_comm]

/-- Behind an insertion each member is the one put in or was there before. -/
theorem mem_insertMember {m : String × Value} : ∀ {members : Members},
    m ∈ insertMember name value members → m = (name, value) ∨ m ∈ members
  | [], h => .inl (List.mem_singleton.1 h)
  | (n, v) :: rest, h => by
    rw [insertMember] at h
    split at h
    · exact List.mem_cons.1 h
    · split at h
      · exact (List.mem_cons.1 h).imp_right (List.mem_cons_of_mem _)
      · rcases List.mem_cons.1 h with rfl | h
        · exact .inr (List.mem_cons_self ..)
        · exact (mem_insertMember h).imp_right (List.mem_cons_of_mem _)

theorem Ascending.insertMember : ∀ {members : Members}, Ascending members →
    Ascending (insertMember name value members)
  | [], _ => List.pairwise_singleton ..
  | (n, v) :: rest, h => by
    obtain ⟨hn, hrest⟩ := List.pairwise_cons.1 h
    rw [Json.insertMember]
    split
    · rename_i hlt
      refine List.pairwise_cons.2 ⟨?_, h⟩
      intro other hother
      rcases List.mem_cons.1 hother with rfl | hother
      · exact hlt
      · exact String.lt_trans hlt (hn other hother)
    · rename_i hlt
      split
      · rename_i heq
        exact List.pairwise_cons.2 ⟨heq ▸ hn, hrest⟩
      · rename_i heq
        have hgreater : n < name := by
          refine Classical.byContradiction fun hnot => heq ?_
          exact String.le_antisymm (String.not_lt.1 hnot) (String.not_lt.1 hlt)
        refine List.pairwise_cons.2 ⟨?_, Ascending.insertMember hrest⟩
        intro other hother
        rcases mem_names_insertMember.1 hother with rfl | hother
        · exact hgreater
        · exact hn other hother

/-- A member of a new name is one more. -/
theorem insertMember_perm : ∀ {members : Members}, name ∉ members.map Prod.fst →
    (insertMember name value members).Perm ((name, value) :: members)
  | [], _ => .refl _
  | (n, v) :: rest, h => by
    rw [List.map_cons, List.mem_cons, not_or] at h
    rw [insertMember, if_neg h.1]
    split
    · exact .refl _
    · exact ((insertMember_perm h.2).cons (n, v)).trans (.swap ..)

/-- A member whose name is behind all others goes to the end. -/
theorem insertMember_last : ∀ {members : Members}, (∀ n ∈ members.map Prod.fst, n < name) →
    insertMember name value members = members ++ [(name, value)]
  | [], _ => rfl
  | (n, v) :: rest, h => by
    obtain ⟨hn, hrest⟩ := List.forall_mem_cons.1 h
    have hne : name ≠ n := by
      rintro rfl
      exact String.lt_irrefl _ hn
    rw [insertMember, if_neg (String.lt_asymm hn), if_neg hne, insertMember_last hrest]
    rfl

/-! ## Reading members -/

/-- Reading on among members: each goes behind those found before. -/
theorem readMembers_written {depth : Nat} (style above : Style) :
    ∀ {members : Members} (found : Members) (first : Bool) (fuel : Nat) (rest : Symbols),
      (∀ m ∈ members, Reads depth .any m.2) → Ascending (found ++ members) →
      (writtenMembers style first members).length + 1 ≤ fuel →
        readMembers fuel depth first found ((writtenMembers style first members).map some ++
          (above.gap.map some ++ some '\x7d' :: rest)) = .ok (found ++ members, rest)
  | [], found, first, fuel + 1, rest, _, _, _ => by
    rw [writtenMembers_nil, List.map_nil, List.nil_append, readMembers, nextName_close,
      List.append_nil]
  | (name, v) :: members, found, first, fuel + 1, rest, hread, hascending, hfuel => by
    obtain ⟨hv, hmembers⟩ := List.forall_mem_cons.1 hread
    simp only [writtenMembers_cons, List.length_append, List.length_cons] at hfuel
    have hlast : insertMember name v found = found ++ [(name, v)] := by
      refine insertMember_last ?_
      rw [Ascending, List.map_append, List.map_cons] at hascending
      intro n hn
      exact (List.pairwise_append.1 hascending).2.2 n hn name (List.mem_cons_self ..)
    have hvalue := hv.reads style fuel _ (show (v.written style).length ≤ fuel by omega)
      (endsNumber_members style above members rest)
    have htail := readMembers_written style above (found ++ [(name, v)]) false fuel rest hmembers
      (by simpa using hascending) (by omega)
    simp only [writtenMembers_cons, stringChars, List.map_append, List.map_cons, List.append_assoc,
      List.cons_append, List.nil_append] at htail ⊢
    rw [readMembers, nextName_lead]
    simp only [string_stringChars, colon_cons, read_colonGap, hvalue, hlast, htail, bind, Except.bind]

/-- A free object is read back if its names ascend and its values are read back. -/
theorem reads_members {depth : Nat} {members : Members} (hascending : Ascending members)
    (h : ∀ m ∈ members, Reads depth .any m.2) : Reads (depth + 1) .members (.object members) where
  starts := starts_object members
  reads style fuel rest hfuel _ := by
    obtain ⟨above, htext⟩ := exists_written_object style members
    rw [htext] at hfuel ⊢
    obtain ⟨fuel, rfl, hrest⟩ := exists_fuel hfuel
    simp only [List.length_append, List.length_singleton] at hrest
    have hread := readMembers_written style.inside above [] true fuel rest h hascending (by omega)
    simp only [List.map_cons, List.map_append, List.cons_append, List.append_assoc, List.map_nil,
      List.nil_append, read, next_cons (c := some '\x7b') rfl, if_true, Nat.add_one_ne_zero,
      if_false, Nat.add_sub_cancel]
    rw [hread]
    rfl

end TypedTables.Json
