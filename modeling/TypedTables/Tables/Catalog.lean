/-
The compiled tables, by name.
-/
import TypedTables.Tables.Items
import TypedTables.Tables.Monsters

namespace TypedTables.Tables

def itemsName : String := Record.tableName Item

def monstersName : String := Record.tableName Monster

/-- The names of all compiled tables, in the order in which they were compiled. -/
def tableNames : List String := [itemsName, monstersName]

end TypedTables.Tables
