import TypedTables.Main
import TypedTables.Store.Memory
import TypedTables.Registry.Machine
import TypedTables.Proofs.Registry.Interleaving
import TypedTables.Proofs.Schema.Names
import TypedTables.Proofs.Csv.Lines
import TypedTables.Proofs.Json.Members
import TypedTables.Proofs.Project.Agreement
import TypedTables.Proofs.Binding.Dynamic
import TypedTables.Proofs.Binding.OwnRows
import TypedTables.Proofs.Registry.History
import TypedTables.Proofs.Registry.Transparency
import TypedTables.Proofs.Registry.Stored
import TypedTables.Proofs.Tables.Compiled
import TypedTables.Proofs.Project.Replacement
import TypedTables.Proofs.Project.Isolation
import TypedTables.Proofs.Project.History
import TypedTables.Proofs.Project.Lookup
import TypedTables.Proofs.Project.Owners
import TypedTables.Proofs.Store.Agreement
import TypedTables.Proofs.Csv.Segments
import TypedTables.Proofs.Csv.Written
import TypedTables.Proofs.Csv.EmptyRows
import TypedTables.Proofs.Binding.Policies
import TypedTables.Proofs.Tables.ColumnOrder
import TypedTables.Proofs.Project.Recompile
import TypedTables.Proofs.Project.FreshRegistry
import TypedTables.Proofs.Source.TableModule
import TypedTables.Proofs.Schema.Growth
import TypedTables.Proofs.Schema.FirstAppearance
import TypedTables.Proofs.Binding.IntegerCells
import TypedTables.Proofs.Project.Discovery
import TypedTables.Proofs.Schema.TableNames
import TypedTables.Proofs.Tables.Lookup
import TypedTables.Proofs.Project.Reading
