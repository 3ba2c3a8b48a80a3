/-
Claimed names are new. Numbered names differ for different numbers, so among one more of them than
there are taken names one is free; hence a claim never yields a taken name, and names claimed one
after the other differ from each other (`Fresh`). A search that tries one number after the other needs
no bound to end, and it ends where the claim does (`ClaimEnds`). Main statement: `claims_least`.
-/
import TypedTables.Naming.Unique
import Mathlib

namespace TypedTables.Naming

/-! ## Numbered names -/

theorem toString_nat_injective : Function.Injective (fun n : Nat => toString n) := by
  intro m n h
  have hd : Nat.toDigits 10 m = Nat.toDigits 10 n := by
    rw [← Nat.toList_repr, ← Nat.toList_repr]
    exact congrArg String.toList h
  have hv := congrArg (fun cs => Nat.ofDigitChars 10 cs 0) hd
  simpa only [Nat.ofDigitChars_ten_toDigits] using hv

theorem numbered_injective (base separator : String) :
    Function.Injective (numbered base separator) := by
  intro m n h
  have ht : (base ++ separator).toList ++ (toString m).toList =
      (base ++ separator).toList ++ (toString n).toList := by
    rw [← String.toList_append, ← String.toList_append]
    exact congrArg String.toList h
  exact toString_nat_injective (String.toList_inj.1 (List.append_cancel_left ht))

theorem exists_free (base separator : String) (taken : List String) :
    ∃ n ∈ List.range' 2 (taken.length + 1), numbered base separator n ∉ taken := by
  by_contra hall
  push Not at hall
  -- all of them would be different members of `taken`
  have hnodup : ((List.range' 2 (taken.length + 1)).map (numbered base separator)).Nodup :=
    List.Nodup.map (numbered_injective base separator) List.nodup_range'
  have hsub : (List.range' 2 (taken.length + 1)).map (numbered base separator) ⊆ taken := by
    intro name hname
    obtain ⟨n, hn, rfl⟩ := List.mem_map.1 hname
    exact hall n hn
  have hlen := (hnodup.subperm hsub).length_le
  simp at hlen

/-- The number found is the least one from 2 on whose name is free. -/
theorem freeNumber_spec (base separator : String) (taken : List String) :
    2 ≤ freeNumber base separator taken ∧
      numbered base separator (freeNumber base separator taken) ∉ taken ∧
      ∀ n, 2 ≤ n → n < freeNumber base separator taken → numbered base separator n ∈ taken := by
  obtain ⟨m, hm, hfree⟩ := exists_free base separator taken
  have hsome : ((List.range' 2 (taken.length + 1)).find? fun n =>
      !taken.contains (numbered base separator n)).isSome := by
    rw [List.find?_isSome]
    exact ⟨m, hm, by simpa using hfree⟩
  obtain ⟨n, hn⟩ := Option.isSome_iff_exists.1 hsome
  have hnumber : freeNumber base separator taken = n := by unfold freeNumber; rw [hn]; rfl
  obtain ⟨hp, hmem, hleast⟩ := List.find?_range'_eq_some.1 hn
  rw [hnumber]
  refine ⟨(List.mem_range'_1.1 hmem).1, by simpa using hp, ?_⟩
  intro k hk hkn
  simpa using hleast k hk hkn

/-! ## Claims -/

/-- A claim never gets a taken name. -/
theorem freeName_not_mem (base separator : String) (taken : List String) :
    freeName base separator taken ∉ taken := by
  unfold freeName
  split
  · exact (freeNumber_spec base separator taken).2.1
  · rename_i h; simpa using h

/-- The name of a claim is its base, or the base with the separator and a number. -/
theorem freeName_cases (base separator : String) (taken : List String) :
    freeName base separator taken = base ∨ ∃ n, freeName base separator taken = numbered base separator n := by
  unfold freeName
  split
  · exact .inr ⟨_, rfl⟩
  · exact .inl rfl

/-! ## The search without a bound -/

section

variable {base separator : String} {taken : List String}

/-- The number that a search ends with which tries one number after the other from some number on. -/
inductive SearchEnds (base separator : String) (taken : List String) : Nat → Nat → Prop
  | found {n : Nat} (free : numbered base separator n ∉ taken) : SearchEnds base separator taken n n
  | next {n m : Nat} (held : numbered base separator n ∈ taken)
      (later : SearchEnds base separator taken (n + 1) m) : SearchEnds base separator taken n m

/-- The name that a claim ends with when numbers from 2 on are tried behind a base that is taken. -/
inductive ClaimEnds (base separator : String) (taken : List String) : String → Prop
  | base (free : base ∉ taken) : ClaimEnds base separator taken base
  | numbered {n : Nat} (held : base ∈ taken) (search : SearchEnds base separator taken 2 n) :
      ClaimEnds base separator taken (numbered base separator n)

/-- A search ends with the least number whose name is free. -/
theorem searchEnds_iff {n m : Nat} : SearchEnds base separator taken n m ↔
    n ≤ m ∧ numbered base separator m ∉ taken ∧
      ∀ k, n ≤ k → k < m → numbered base separator k ∈ taken := by
  constructor
  · intro h
    induction h with
    | found free => exact ⟨le_rfl, free, fun k hk hlt => absurd hk (by omega)⟩
    | @next n m held later ih =>
      obtain ⟨hle, hfree, htaken⟩ := ih
      refine ⟨by omega, hfree, ?_⟩
      intro k hk hlt
      rcases hk.eq_or_lt with rfl | hk
      · exact held
      · exact htaken k hk hlt
  · rintro ⟨hle, hfree, htaken⟩
    -- back from the free number, as every one before it is tried in vain
    induction hle using Nat.decreasingInduction with
    | self => exact .found hfree
    | of_succ n hlt ih => exact .next (htaken n le_rfl hlt) (ih fun k hk => htaken k (by omega))

theorem SearchEnds.unique {n m m' : Nat} (h : SearchEnds base separator taken n m)
    (h' : SearchEnds base separator taken n m') : m = m' := by
  obtain ⟨hle, hfree, htaken⟩ := searchEnds_iff.1 h
  obtain ⟨hle', hfree', htaken'⟩ := searchEnds_iff.1 h'
  rcases lt_trichotomy m m' with hlt | heq | hlt
  · exact absurd (htaken' m hle hlt) hfree
  · exact heq
  · exact absurd (htaken m' hle' hlt) hfree'

/-- Every claim ends, with the name that it gets and with no other. -/
theorem claimEnds_iff {name : String} :
    ClaimEnds base separator taken name ↔ name = freeName base separator taken := by
  have hsearch : SearchEnds base separator taken 2 (freeNumber base separator taken) :=
    searchEnds_iff.2 (freeNumber_spec base separator taken)
  unfold freeName
  constructor
  · rintro (free | ⟨held, search⟩)
    · rw [if_neg (by simpa using free)]
    · rw [if_pos (by simpa using held), search.unique hsearch]
  · rintro rfl
    split_ifs with h
    · exact .numbered (by simpa using h) hsearch
    · exact .base (by simpa using h)

/-- A claim depends on which names are taken, not on their order or number. -/
theorem freeName_congr {held : List String} (h : ∀ name, name ∈ held ↔ name ∈ taken) :
    freeName base separator held = freeName base separator taken := by
  have hends : ClaimEnds base separator held (freeName base separator held) := claimEnds_iff.2 rfl
  generalize freeName base separator held = name at hends ⊢
  have hsearch {n m : Nat} : SearchEnds base separator held n m ↔ SearchEnds base separator taken n m := by
    simp only [searchEnds_iff, h]
  refine claimEnds_iff.1 ?_
  rcases hends with free | ⟨hheld, search⟩
  · exact .base (by rwa [← h])
  · exact .numbered ((h _).1 hheld) (hsearch.1 search)

end

/-! ## Names claimed one after the other -/

/-- The names of things differ from each other and from the names taken before. -/
structure Fresh {α : Type} (name : α → String) (taken : List String) (things : List α) : Prop where
  nodup : (things.map name).Nodup
  new : ∀ a ∈ things, name a ∉ taken

theorem Fresh.nil {α : Type} (name : α → String) (taken : List String) : Fresh name taken [] :=
  ⟨List.nodup_nil, by simp⟩

/-- A thing is put in front of those that were named after it. -/
theorem Fresh.cons {α : Type} {name : α → String} {taken : List String} {a : α} {things : List α}
    (h : Fresh name (name a :: taken) things) (ha : name a ∉ taken) :
    Fresh name taken (a :: things) := by
  constructor
  · refine List.nodup_cons.2 ⟨?_, h.nodup⟩
    intro hmem
    obtain ⟨b, hb, heq⟩ := List.mem_map.1 hmem
    exact h.new b hb (heq ▸ List.mem_cons_self ..)
  · intro b hb
    rcases List.mem_cons.1 hb with rfl | hb
    · exact ha
    · exact fun hm => h.new b hb (List.mem_cons_of_mem _ hm)

theorem fresh_claimAll : ∀ (claims : List (String × String)) (taken : List String),
    Fresh id taken (claimAll claims taken).1
  | [], taken => Fresh.nil id taken
  | (base, separator) :: claims, taken =>
    (fresh_claimAll claims (freeName base separator taken :: taken)).cons (freeName_not_mem _ _ _)

theorem length_claimAll : ∀ (claims : List (String × String)) (taken : List String),
    (claimAll claims taken).1.length = claims.length
  | [], _ => rfl
  | (base, separator) :: claims, taken =>
    congrArg (· + 1) (length_claimAll claims (freeName base separator taken :: taken))

theorem mem_claimAll_taken {name : String} : ∀ (claims : List (String × String)) (taken : List String),
    name ∈ (claimAll claims taken).2 ↔ name ∈ (claimAll claims taken).1 ∨ name ∈ taken
  | [], taken => by simp [claimAll]
  | (base, separator) :: claims, taken => by
    simp only [claimAll, claim, mem_claimAll_taken claims, List.mem_cons]
    tauto

/-- A claim ends, whatever names are taken, with a name that was not taken, and adds this name to those
taken and no other. It gets its base if that was free, and otherwise the base with the separator and the
least number from 2 on that makes it free. Names claimed one after the other differ from each other and
from the names taken before. -/
theorem claims_least (taken : List String) :
    (∀ base separator, ∃ name taken', claim base separator taken = (name, taken') ∧
      (∀ other, ClaimEnds base separator taken other ↔ other = name) ∧
      name ∉ taken ∧ (∀ x, x ∈ taken' ↔ x = name ∨ x ∈ taken) ∧
      (base ∉ taken → name = base) ∧
      (base ∈ taken → ∃ n, 2 ≤ n ∧ name = base ++ separator ++ toString n ∧
        ∀ k, 2 ≤ k → k < n → base ++ separator ++ toString k ∈ taken) ∧
      ∀ held, (∀ x, x ∈ held ↔ x ∈ taken) → (claim base separator held).1 = name) ∧
    ∀ claims, (claimAll claims taken).1.length = claims.length ∧ (claimAll claims taken).1.Nodup ∧
      (∀ name ∈ (claimAll claims taken).1, name ∉ taken) ∧
      ∀ x, x ∈ (claimAll claims taken).2 ↔ x ∈ (claimAll claims taken).1 ∨ x ∈ taken := by
  constructor
  · intro base separator
    refine ⟨_, _, rfl, fun other => claimEnds_iff, freeName_not_mem _ _ _, fun x => List.mem_cons,
      ?_, ?_, fun held h => freeName_congr h⟩
    · intro hfree
      rw [freeName, if_neg (by simpa using hfree)]
    · intro hheld
      obtain ⟨htwo, -, hleast⟩ := freeNumber_spec base separator taken
      refine ⟨_, htwo, ?_, hleast⟩
      rw [freeName, if_pos (by simpa using hheld), numbered]
  · intro claims
    have hfresh := fresh_claimAll claims taken
    refine ⟨length_claimAll claims taken, ?_, hfresh.new, fun x => mem_claimAll_taken claims taken⟩
    simpa using hfresh.nodup

/-- A numbered name that is claimed as a base before stands in the way of the number. -/
example : (claimAll [("id", "_"), ("id_2", ""), ("id", "_"), ("id_2", ""), ("id_", "")] ["id_"]).1 =
    ["id", "id_2", "id_3", "id_22", "id_4"] := by decide +kernel

end TypedTables.Naming
