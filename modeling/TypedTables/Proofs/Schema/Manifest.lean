/-
Manifests keep schemas: every schema whatever its names, texts and columns is read back from its
manifest. Each kind of thing in a schema has two facts, that its value reads back by its shape and
that it is made again from its value.
-/
import TypedTables.Proofs.Json.RoundTrip
import TypedTables.Schema.Manifest

namespace TypedTables.Schema

open TypedTables.Json TypedTables.Text

/-! ## Values by their shapes -/

theorem Literal.reads (depth : Nat) (l : Literal) : Reads (depth + 1) Literal.shape l.toValue :=
  reads_record (by decide) (.cons ⟨rfl, reads_string ..⟩ (.cons ⟨rfl, reads_string ..⟩ .nil))

theorem EnumType.reads (depth : Nat) (e : EnumType) : Reads (depth + 3) EnumType.shape e.toValue := by
  refine reads_record (by decide) (.cons ⟨rfl, reads_string ..⟩ (.cons ⟨rfl, reads_list ?_⟩ .nil))
  intro v hv
  obtain ⟨l, -, rfl⟩ := List.mem_map.1 hv
  exact l.reads depth

theorem Scalar.reads (depth : Nat) (s : Scalar) : Reads depth Scalar.shape (.string s.token) :=
  reads_bare (by cases s <;> rfl)

theorem ColumnKind.reads (depth : Nat) : ∀ k : ColumnKind,
    Reads (depth + 4) ColumnKind.shape k.toValue
  | .scalar s => reads_tagged rfl (s.reads _)
  | .enumeration e => reads_tagged rfl (e.reads depth)

theorem Column.reads (depth : Nat) (c : Column) : Reads (depth + 5) Column.shape c.toValue :=
  reads_record (by decide) (.cons ⟨rfl, reads_string ..⟩ (.cons ⟨rfl, reads_string ..⟩
    (.cons ⟨rfl, c.kind.reads depth⟩ .nil)))

theorem TableSchema.reads (depth : Nat) (s : TableSchema) :
    Reads (depth + 7) TableSchema.shape s.toValue := by
  refine reads_record (by decide) (.cons ⟨rfl, reads_string ..⟩ (.cons ⟨rfl, reads_string ..⟩
    (.cons ⟨rfl, reads_string ..⟩ (.cons ⟨rfl, reads_list ?_⟩ (.cons ⟨rfl, reads_bool ..⟩ .nil)))))
  intro v hv
  obtain ⟨c, -, rfl⟩ := List.mem_map.1 hv
  exact c.reads depth

/-! ## Values made again -/

theorem Literal.ofValue?_toValue (l : Literal) : Literal.ofValue? l.toValue = some l := rfl

theorem EnumType.ofValue?_toValue (e : EnumType) : EnumType.ofValue? e.toValue = some e := by
  simp [EnumType.toValue, EnumType.ofValue?, mapM_map_some Literal.ofValue?_toValue]

theorem Scalar.ofValue?_token (s : Scalar) : Scalar.ofValue? (.string s.token) = some s := by
  cases s <;> decide

theorem ColumnKind.ofValue?_toValue : ∀ k : ColumnKind, ColumnKind.ofValue? k.toValue = some k
  | .scalar s => by simp [ColumnKind.toValue, ColumnKind.ofValue?, Scalar.ofValue?_token]
  | .enumeration e => by simp [ColumnKind.toValue, ColumnKind.ofValue?, EnumType.ofValue?_toValue]

theorem Column.ofValue?_toValue (c : Column) : Column.ofValue? c.toValue = some c := by
  simp [Column.toValue, Column.ofValue?, ColumnKind.ofValue?_toValue]

theorem TableSchema.ofValue?_toValue (s : TableSchema) : TableSchema.ofValue? s.toValue = some s := by
  simp [TableSchema.toValue, TableSchema.ofValue?, mapM_map_some Column.ofValue?_toValue]

/-! ## Manifests -/

/-- A schema is read back from its manifest. -/
theorem TableSchema.ofManifest_manifest (s : TableSchema) :
    TableSchema.ofManifest s.manifest = .ok s := by
  have hvalue := decode_written (s.reads 120) (.indented 0) (.inr rfl)
  simp only [Value.written] at hvalue
  rw [ofManifest, TableSchema.decode, manifest, hvalue]
  simp only [bind, Except.bind, ofValue?_toValue, orMismatch]

/-- Whatever its names, texts and columns are, a schema is what its manifest is read as, so no two
schemas have one manifest. -/
theorem TableSchema.manifest_determines (s s' : TableSchema) :
    ofManifest s.manifest = .ok s ∧ (s'.manifest = s.manifest ↔ s' = s) := by
  refine ⟨ofManifest_manifest s, ?_, congrArg manifest⟩
  intro h
  have hread := ofManifest_manifest s'
  rw [h, ofManifest_manifest s] at hread
  exact (Except.ok.inj hread).symm

end TypedTables.Schema
