/-
Compiled tables against their schemas. A row makes a record of the compiled type exactly when it makes
a dynamic one by the schema that the type was compiled from, and fails with the same error otherwise;
so both bind the same rows. The object of a dynamic table of items is read as the compiled table,
though the names in it stand in another order. Main statement: `compiled_dynamic_agree`.

Both make the cells of a row in column order and stop at the first that does not fit, so one equation
for a row is enough, and the only cells that differ are those of an enum.
-/
import TypedTables.Project.Bind
import TypedTables.Proofs.Binding.Dynamic
import TypedTables.Proofs.Schema.Build
import TypedTables.Tables.Catalog

namespace TypedTables.Tables

open TypedTables.Binding TypedTables.Csv TypedTables.Decimal TypedTables.Json TypedTables.Project
open TypedTables.Schema TypedTables.Text

/-! ## Enum cells -/

theorem find?_text {α : Type} (text : α → String) (s : String) : ∀ all : List α,
    (all.find? fun a => text a == s).map text =
      if (all.map text).contains s then some s else none
  | [] => rfl
  | a :: all => by
    by_cases h : text a = s
    · simp [h]
    · have hne : (text a == s) = false := beq_eq_false_iff_ne.2 h
      have hne' : (s == text a) = false := beq_eq_false_iff_ne.2 (Ne.symm h)
      rw [List.find?_cons, hne, List.map_cons, List.contains_cons, hne', Bool.false_or]
      exact find?_text text s all

/-- A cell with one of some texts holds the text of the value that has it. -/
theorem literalCell_eq {α : Type} {ofText? : String → Option α} {text : α → String}
    {literals : List String}
    (h : ∀ s, (ofText? s).map text = if literals.contains s then some s else none)
    (row : Row) (column : String) :
    literalCell literals row column = (enumCell ofText? row column).map text := by
  unfold literalCell enumCell readCell
  cases row.get? column with
  | none => rfl
  | some raw =>
    simp only [← h]
    cases ofText? (String.ofList (trimChars raw.toList)) <;> rfl

/-! ## Cells one after the other -/

section Cells

variable {ε α β γ : Type}

theorem map_bind (r : Except ε α) (f : α → Except ε β) (g : β → γ) :
    (r >>= f).map g = r >>= fun a => (f a).map g := by
  cases r <;> rfl

theorem bind_map (r : Except ε α) (f : α → β) (g : β → Except ε γ) :
    r.map f >>= g = r >>= fun a => g (f a) := by
  cases r <;> rfl

theorem recordFrom_cons (row : Row) (record : Members) (c : Column) (rest : List Column) :
    recordFrom row record (c :: rest) =
      valueCell c row >>= fun v => recordFrom row (insertMember c.name v record) rest := by
  rw [recordFrom]
  cases valueCell c row <;> rfl

end Cells

/-! ## Compiled types and their schemas -/

section Mirrors

variable {ρ : Type}

theorem records_foldl_add : ∀ (records : List ρ) (t : Table ρ),
    records.foldl Table.add t = ⟨t.records ++ records⟩
  | [], t => by rw [List.append_nil]; rfl
  | r :: records, t => by
    rw [List.foldl_cons, records_foldl_add records, Table.add, List.append_assoc]
    rfl

variable [Record ρ]

/-- A schema makes the dynamic form of what a compiled type makes of each row. -/
structure Mirrors (s : TableSchema) (members : ρ → Members) : Prop where
  name : s.tableName = Record.tableName ρ
  record : ∀ row, dynamicRecord s row = (Record.ofRow row).map members

/-- What the two ways of binding rows come to: one table each, with records of the same rows that
differ in form only, and the same rows left out; or the same error. -/
inductive SameBinding (s : TableSchema) (members : ρ → Members) (rows : List Row) :
    Except BindError (Table ρ × List Rejection) →
      Except BindError (DynamicTable × List Rejection) → Prop where
  | bound {t : Table ρ} {d : DynamicTable} (rejected : List Rejection)
      (same : accepted (dynamicRecord s) rows = accepted (Record.ofRow (ρ := ρ)) rows)
      (compiled : List.Forall₂ (fun row r => Record.ofRow row = .ok r)
        (accepted (Record.ofRow (ρ := ρ)) rows) t.records)
      (dynamic : List.Forall₂ (fun row m => dynamicRecord s row = .ok m)
        (accepted (dynamicRecord s) rows) d.records)
      (records : d.records = t.records.map members) :
      SameBinding s members rows (.ok (t, rejected)) (.ok (d, rejected))
  | failed (e : BindError) : SameBinding s members rows (.error e) (.error e)

theorem bind_eq (policy : Policy) (rows : List Row) : Table.bind (ρ := ρ) policy rows =
    (bindRows policy (Record.tableName ρ) Record.ofRow rows).map fun b => (⟨b.records⟩, b.rejected) := by
  simp only [Table.bind, records_foldl_add]
  rfl

variable {s : TableSchema} {members : ρ → Members}

theorem Mirrors.bindSchema_eq (h : Mirrors s members) (policy : Policy) (rows : List Row) :
    bindSchema policy s rows = (Table.bind policy rows).map
      fun b : Table ρ × List Rejection => (⟨b.1.records.map members⟩, b.2) := by
  rw [bindSchema, bind_eq, bindRows_map policy s.tableName h.record, h.name]
  cases bindRows policy (Record.tableName ρ) (Record.ofRow (ρ := ρ)) rows <;> rfl

theorem Mirrors.sameBinding (h : Mirrors s members) (policy : Policy) (rows : List Row) :
    SameBinding s members rows (Table.bind policy rows) (bindSchema policy s rows) := by
  rw [h.bindSchema_eq, bind_eq]
  cases hb : bindRows policy (Record.tableName ρ) (Record.ofRow (ρ := ρ)) rows with
  | error e => exact .failed e
  | ok b =>
    have hrows := accepted_map h.record rows
    have hcompiled := bindRows_ok hb
    refine .bound b.rejected hrows hcompiled ?_ rfl
    rw [hrows, List.forall₂_map_right_iff]
    refine hcompiled.imp ?_
    intro row r hr
    rw [h.record, hr]
    rfl

/-- The object of a dynamic table is read as the compiled table if each record is. -/
theorem decode_dynamic {records : List ρ}
    (hvalue : ∀ r : ρ, Record.ofValue? (Record.toValue r) = some r)
    (h : ∀ r ∈ records, ReadsAs 125 (Record.shape ρ) (.object (members r)) (Record.toValue r)) :
    Table.decode (Utf8.symbols (objectOf ⟨records.map members⟩)) = .ok (⟨records⟩ : Table ρ) := by
  have hitems : List.Forall₂ (ReadsAs 125 (Record.shape ρ))
      ((records.map members).map Value.object) (records.map Record.toValue) := by
    rw [List.map_map, List.forall₂_map_left_iff, List.forall₂_map_right_iff, List.forall₂_same]
    exact h
  have hnamed : NamedAs 126 [("records", .list (Record.shape ρ))]
      [("records", .array ((records.map members).map .object))]
      [("records", .array (records.map Record.toValue))] :=
    .cons ⟨rfl, _, rfl, reads_items hitems⟩ .nil
  have hreads : ReadsAs maxDepth (.record [("records", .list (Record.shape ρ))])
      (DynamicTable.mk (records.map members)).toValue (Table.mk records).toValue :=
    reads_named hnamed (List.pairwise_singleton ..) rfl
  have hdecode := decode_written hreads .compact (.inl rfl)
  rw [List.append_nil] at hdecode
  simp only [Table.decode, objectOf, Utf8.symbols_encode, Value.compact, Value.written] at hdecode ⊢
  simp only [hdecode, bind, Except.bind, Table.toValue, Table.ofValue?, mapM_map_some hvalue,
    Option.map_some, pure, Except.pure]

end Mirrors

/-! ## Items -/

/-- The schema that the table of items was compiled from. -/
def itemsSchema : TableSchema where
  tableName := "Items"
  moduleName := "items"
  recordName := "ItemsRecord"
  columns := [⟨"ID", "id", .scalar .int⟩, ⟨"Name", "name", .scalar .string⟩,
    ⟨"Kind", "kind", .enumeration ⟨"Kind", [⟨"Weapon", "Weapon"⟩, ⟨"Armor", "Armor"⟩]⟩⟩]
  hasIdColumn := true

/-- The schema is built of the rows that the table was compiled from. -/
theorem build_items : build "Items" ["ID", "Name", "Kind"] ["int", "string", "enum"]
    ([["1", "Sword", "Weapon"], ["2", "Shield", "Armor"], ["3", "Axe", "Weapon"]].map
      (Row.ofCells 3 ["ID", "Name", "Kind"])) = .ok itemsSchema := by
  decide +kernel

namespace Item

/-- The dynamic form of an item. -/
def members (r : Item) : Members :=
  [("ID", .number (.int r.id)), ("Kind", .string r.kind.text), ("Name", .string r.name)]

theorem mirrors : Mirrors itemsSchema members where
  name := rfl
  record row := by
    have hkind : literalCell ["Weapon", "Armor"] row "Kind" =
        (enumCell Kind.ofText? row "Kind").map Kind.text :=
      literalCell_eq (fun s => find?_text Kind.text s Kind.all) row "Kind"
    simp only [dynamicRecord, itemsSchema, recordFrom_cons, valueCell, EnumType.texts, List.map_cons,
      List.map_nil, hkind, Record.ofRow, Item.ofRow, map_bind, bind_map]
    rfl

theorem ofRow_id {row : Row} {r : Item} (h : ofRow row = .ok r) : intCell row "ID" = .ok r.id := by
  obtain ⟨id, hid, h⟩ := exists_of_bind_ok h
  obtain ⟨name, -, h⟩ := exists_of_bind_ok h
  obtain ⟨kind, -, h⟩ := exists_of_bind_ok h
  cases h
  exact hid

theorem ofValue?_toValue (r : Item) : ofValue? r.toValue = some r := by
  obtain ⟨id, name, kind⟩ := r
  cases kind <;> rfl

/-- The dynamic form of an item is read as the item itself. -/
theorem readsAs (depth : Nat) {r : Item} (hlow : intRange.1 ≤ r.id) (hhigh : r.id ≤ intRange.2) :
    ReadsAs (depth + 1) shape (.object r.members) r.toValue := by
  have hkind : shapeOf? r.kind.text (Kind.all.map fun k => (k.text, (none : Option Shape))) = some none := by
    cases r.kind <;> rfl
  have hnamed : NamedAs depth [("ID", .int intRange.1 intRange.2), ("Name", .string),
      ("Kind", .choice (Kind.all.map fun k => (k.text, none)))] r.members r.members :=
    .cons ⟨rfl, _, rfl, reads_int depth (isKept_of_int hlow hhigh) hlow hhigh⟩
      (.cons ⟨rfl, _, rfl, reads_bare hkind⟩ (.cons ⟨rfl, _, rfl, reads_string depth r.name⟩ .nil))
  exact reads_named hnamed (show ["ID", "Kind", "Name"].Nodup by decide) rfl

end Item

/-! ## Monsters -/

/-- The schema that the table of monsters was compiled from. -/
def monstersSchema : TableSchema where
  tableName := "Monsters"
  moduleName := "monsters"
  recordName := "MonstersRecord"
  columns := [⟨"ID", "id", .scalar .int⟩, ⟨"Name", "name", .scalar .string⟩,
    ⟨"Health", "health", .scalar .long⟩, ⟨"Speed", "speed", .scalar .float⟩,
    ⟨"Experience", "experience", .scalar .double⟩, ⟨"Boss", "boss", .scalar .bool⟩,
    ⟨"Element", "element", .enumeration ⟨"Element", [⟨"Water", "Water"⟩, ⟨"Fire", "Fire"⟩]⟩⟩]
  hasIdColumn := true

def monstersHeader : List String := ["ID", "Name", "Health", "Speed", "Experience", "Boss", "Element"]

/-- The schema is built of the rows that the table was compiled from. -/
theorem build_monsters : build "Monsters" monstersHeader
    ["int", "string", "long", "float", "double", "bool", "enum"]
    ([["1", "Slime", "20", "1.5", "10.5", "false", "Water"],
      ["2", "Dragon", "5000", "3.25", "1200.75", "true", "Fire"],
      ["3", "Imp", "45", "2.0", "33.0", "FALSE", "Fire"]].map (Row.ofCells 3 monstersHeader)) =
        .ok monstersSchema := by
  decide +kernel

namespace Monster

/-- The dynamic form of a monster; its speed is widened. -/
def members (r : Monster) : Members :=
  [("Boss", .bool r.boss), ("Element", .string r.element.text),
    ("Experience", .number (.double r.experience)), ("Health", .number (.int r.health)),
    ("ID", .number (.int r.id)), ("Name", .string r.name),
    ("Speed", .number (.double (r.speed.toFormat .double)))]

theorem mirrors : Mirrors monstersSchema members where
  name := rfl
  record row := by
    have helement : literalCell ["Water", "Fire"] row "Element" =
        (enumCell Element.ofText? row "Element").map Element.text :=
      literalCell_eq (fun s => find?_text Element.text s Element.all) row "Element"
    simp only [dynamicRecord, monstersSchema, recordFrom_cons, valueCell, EnumType.texts,
      List.map_cons, List.map_nil, helement, Record.ofRow, Monster.ofRow, map_bind, bind_map]
    rfl

theorem ofRow_id {row : Row} {r : Monster} (h : ofRow row = .ok r) :
    intCell row "ID" = .ok r.id := by
  obtain ⟨id, hid, h⟩ := exists_of_bind_ok h
  obtain ⟨name, -, h⟩ := exists_of_bind_ok h
  obtain ⟨health, -, h⟩ := exists_of_bind_ok h
  obtain ⟨speed, -, h⟩ := exists_of_bind_ok h
  obtain ⟨experience, -, h⟩ := exists_of_bind_ok h
  obtain ⟨boss, -, h⟩ := exists_of_bind_ok h
  obtain ⟨element, -, h⟩ := exists_of_bind_ok h
  cases h
  exact hid

end Monster

/-! ## Agreement -/

/-- The object of a bound dynamic table of items is read as the compiled table. -/
theorem decode_items (policy : Policy) (rows : List Row) :
    (bindSchema policy itemsSchema rows).map (fun b => Table.decode (Utf8.symbols (objectOf b.1))) =
      (Table.bind policy rows).map fun b : Items × List Rejection => .ok b.1 := by
  rw [Item.mirrors.bindSchema_eq]
  cases hbind : Table.bind (ρ := Item) policy rows with
  | error e => rfl
  | ok b =>
    rw [bind_eq] at hbind
    obtain ⟨bound, hb, rfl⟩ := exists_of_map_ok hbind
    refine congrArg Except.ok (decode_dynamic Item.ofValue?_toValue ?_)
    intro r hr
    obtain ⟨row, -, hrow⟩ := exists_mem_of_forall₂ (List.Forall₂.flip (bindRows_ok hb)) hr
    have hrange := intCell_range (Item.ofRow_id hrow)
    exact Item.readsAs 124 hrange.1 hrange.2

/-- Binding as a compiled table and binding by the schema of that table agree, for items and for
monsters: the same rows make records, with equal values under the names of the columns, and the same
rows are left out or end the binding, with equal errors. The object of a dynamic table of items is read
as the compiled table that binding makes. -/
theorem compiled_dynamic_agree (policy : Policy) (rows : List Row) :
    SameBinding itemsSchema Item.members rows (Table.bind policy rows)
        (bindSchema policy itemsSchema rows) ∧
      SameBinding monstersSchema Monster.members rows (Table.bind policy rows)
        (bindSchema policy monstersSchema rows) ∧
      (bindSchema policy itemsSchema rows).map (fun b => Table.decode (Utf8.symbols (objectOf b.1))) =
        (Table.bind policy rows).map fun b : Items × List Rejection => .ok b.1 :=
  ⟨Item.mirrors.sameBinding policy rows, Monster.mirrors.sameBinding policy rows,
    decode_items policy rows⟩

end TypedTables.Tables
