import Formwright.Generation.Basic
import Formwright.Sql.Schema

/-
  Generation of SQL scripts. Every script is an artifact of its own, and the primary output is all
  of them in order of execution.
-/

namespace Formwright.Sql

/-- The text of a script as it is handed out. -/
def Script.output (s : Script) (d : Dialect) (o : Options) : String :=
  if o.comments.isGiven then s.commented d else s.content d

def target (d : Dialect) : String := "sql:" ++ d.name

/-- The scripts of a form as a product. -/
def product (d : Dialect) (f : Form) (o : Options) : Except Fault Product := do
  let main ← Identifier.tableNameOf f.name
  let ss ← scripts d f main o
  return {
    success := true
    target := target d
    output := "\n\n".intercalate (ss.map (·.output d o)) ++ "\n"
    outputPath := main ++ "_" ++ d.name ++ ".sql"
    artifacts := ss.foldl (fun as s => putArtifact as (s.name ++ ".sql") (s.output d o)) []
    statistics := .statistics (← Statistics.collect f) }

/-- The generator of one dialect. -/
def generator (d : Dialect) : Generator := .ofProducts (target d) (product d)

end Formwright.Sql
