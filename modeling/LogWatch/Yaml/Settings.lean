import LogWatch.Harness.Settings
import LogWatch.Text.Utf8
import LogWatch.Yaml.Fields
import LogWatch.Yaml.Writer

/-!
Settings out of documents, and settings as documents. What a document does not say has its
standard value; only the command and the log folder of a node, and the node of a harness, have
none.
-/

namespace LogWatch

open Yaml

def largestNumber : Nat := 0xffffffffffffffff
def largestAttempts : Nat := 0xffffffff

namespace Patterns

def ofTree (d : Document) (n : Tree) : Except YamlError Patterns := do
  let fs ← asFields d n
  let text (name : String) (std : String) : Except YamlError String :=
    (·.getD std) <$> field? fs name (asText d)
  let std := standard
  return ⟨← text "heartbeat" std.heartbeat, ← text "miners_started" std.minersStarted,
    ← text "transaction_sealed" std.transactionSealed,
    ← text "transaction_rejected" std.transactionRejected⟩

def toValue (p : Patterns) : Value :=
  .mapping [("heartbeat", .text p.heartbeat), ("miners_started", .text p.minersStarted),
    ("transaction_sealed", .text p.transactionSealed),
    ("transaction_rejected", .text p.transactionRejected)]

end Patterns

namespace Settings

def ofTree (d : Document) (n : Tree) : Except YamlError Settings := do
  let fs ← asFields d n
  let std := standard
  let number (name : String) (largest std : Nat) : Except YamlError Nat :=
    (·.getD std) <$> field? fs name (asNumber largest d)
  return ⟨← number "poll_interval_ms" largestNumber std.pollMillis,
    ← number "rotation_grace_ms" largestNumber std.graceMillis,
    ← number "rotation_attempts" largestAttempts std.attempts,
    (← field? fs "patterns" (Patterns.ofTree d)).getD std.patterns⟩

def toEntries (s : Settings) : List (String × Value) :=
  [("poll_interval_ms", .number s.pollMillis), ("rotation_grace_ms", .number s.graceMillis),
    ("rotation_attempts", .number s.attempts), ("patterns", s.patterns.toValue)]

end Settings

namespace Command

def ofTree (d : Document) (n : Tree) : Except YamlError Command := do
  let fs ← asFields d n
  let program ← field? fs "program" (asText d)
  let args ← field? fs "args" fun n => do (← asList d n).mapM (asText d)
  let env ← field? fs "env" fun n => do
    (← asMapping d n).foldlM (fun (env : Env) (k, v) =>
      return env.insert (← asText d k) (← asText d v)) Env.empty
  let currentDir ← field? fs "current_dir" (asOptionalText d)
  return ⟨program.getD "", args.getD [], env.getD .empty, currentDir.getD none⟩

def optional : Option String → Value
  | some s => .text s
  | none => .null

def toEntries (c : Command) : List (String × Value) :=
  [("program", .text c.program), ("args", .list c.args),
    ("env", .mapping (c.env.entries.map fun (k, v) => (k, .text v))),
    ("current_dir", optional c.currentDir)]

end Command

namespace NodeSettings

def ofTree (d : Document) (n : Tree) : Except YamlError NodeSettings := do
  let fs ← asFields d n
  let command ← field fs "command" (Command.ofTree d)
  let logDir ← field fs "log_dir" (asText d)
  let dataDir ← field? fs "data_dir" (asOptionalText d)
  let shutdown ← field? fs "shutdown_timeout_ms" (asNumber largestNumber d)
  return ⟨command, logDir, dataDir.getD none, shutdown.getD standardShutdownMillis⟩

def toEntries (s : NodeSettings) : List (String × Value) :=
  [("command", .mapping s.command.toEntries), ("log_dir", .text s.logDir),
    ("data_dir", Command.optional s.dataDir), ("shutdown_timeout_ms", .number s.shutdownMillis)]

end NodeSettings

namespace HarnessSettings

def ofTree (d : Document) (n : Tree) : Except YamlError HarnessSettings := do
  let fs ← asFields d n
  let node ← field fs "node" (NodeSettings.ofTree d)
  let listener ← field? fs "listener" (Settings.ofTree d)
  let logLevel ← field? fs "log_level" (asText d)
  return ⟨node, listener.getD .standard, logLevel.getD standardLogLevel⟩

def toEntries (s : HarnessSettings) : List (String × Value) :=
  [("node", .mapping s.node.toEntries), ("listener", .mapping s.listener.toEntries),
    ("log_level", .text s.logLevel)]

end HarnessSettings

/-- Reads one value out of a text. -/
def Yaml.parse (read : Document → Tree → Except YamlError α) (text : String) :
    Except YamlError α := do
  let d ← Document.parse text
  read d d.root

/-- Why no settings come out of a text or a file. -/
inductive LoadError (ε : Type) where
  | yaml (e : YamlError)
  | unreadable (cause : DiskError)
  | unusable (e : ε)
deriving Repr

/-- Settings out of a text, checked. -/
def load (read : Document → Tree → Except YamlError α) (fault? : α → Option ε) (text : String) :
    Except (LoadError ε) α :=
  match Yaml.parse read text with
  | .error e => .error (.yaml e)
  | .ok a =>
    match fault? a with
    | some e => .error (.unusable e)
    | none => .ok a

/-- Settings out of the content of a file, or out of none. -/
def loadFile (read : Document → Tree → Except YamlError α) (fault? : α → Option ε)
    (content : Except DiskError (List UInt8)) : Except (LoadError ε) α :=
  match content with
  | .error e => .error (.unreadable e)
  | .ok bytes =>
    match Text.decode? bytes with
    | none => .error (.unreadable .notText)
    | some text => load read fault? text

end LogWatch
