import Mathlib
import LogWatch.Proofs.Yaml.Fields

/-!
Settings survive being written and read.

Every record is a mapping with names of its own, all of them short enough to stand before their
colon. Its fields are found by their names again, so the record is what its document decodes to,
whatever the texts in it are; and what a check says about settings it says about them after they
were written and read.
-/

namespace LogWatch

open Yaml

/-! ### Records -/

lemma Yaml.entriesFit_of_simple {es : List (String × Value)}
    (hsimple : ∀ e ∈ es, isSimpleKey e.1 = true) (hvalues : ∀ e ∈ es, e.2.Fits) :
    EntriesFit es := by
  induction es with
  | nil => trivial
  | cons e es ih =>
    obtain ⟨hkey, hkeys⟩ := List.forall_mem_cons.mp hsimple
    obtain ⟨hvalue, hvalues⟩ := List.forall_mem_cons.mp hvalues
    exact ⟨fun hnot => absurd hkey (by simp [hnot]), hvalue, ih hkeys hvalues⟩

lemma Yaml.entriesFit_of_texts (es : List (String × String)) :
    EntriesFit (es.map fun e => (e.1, .text e.2)) := by
  induction es with
  | nil => trivial
  | cons e es ih => exact ⟨fun _ => ⟨e.2, rfl⟩, trivial, ih⟩

variable {d : Document}

lemma Yaml.field?_text {es : List (String × Value)} {name t : String}
    (hnames : (es.map Prod.fst).Nodup) (hmem : (name, .text t) ∈ es) :
    field? (fieldTrees es) name (asText d) = .ok (some t) :=
  field?_of_mem hnames hmem (asText_textTree t)

namespace Patterns

/-- The patterns by their names, as they are written. -/
def toEntries (p : Patterns) : List (String × Value) :=
  [("heartbeat", .text p.heartbeat), ("miners_started", .text p.minersStarted),
    ("transaction_sealed", .text p.transactionSealed),
    ("transaction_rejected", .text p.transactionRejected)]

lemma ofTree_toTree (p : Patterns) : ofTree d p.toValue.toTree = .ok p := by
  have hnames : (p.toEntries.map Prod.fst).Nodup := by simp [toEntries]
  have htext : ∀ name t, (name, .text t) ∈ p.toEntries →
      field? (fieldTrees p.toEntries) name (asText d) = .ok (some t) :=
    fun name t hmem => field?_text hnames hmem
  rw [ofTree, show p.toValue = .mapping p.toEntries from rfl, asFields_toTree]
  simp only [bind, Except.bind]
  rw [htext "heartbeat" p.heartbeat (by simp [toEntries]),
    htext "miners_started" p.minersStarted (by simp [toEntries]),
    htext "transaction_sealed" p.transactionSealed (by simp [toEntries]),
    htext "transaction_rejected" p.transactionRejected (by simp [toEntries])]
  rfl

lemma fits_toValue (p : Patterns) : p.toValue.Fits := by
  have hsimple : ∀ e ∈ p.toEntries, isSimpleKey e.1 = true := by
    simp only [toEntries, List.forall_mem_cons]
    decide
  exact entriesFit_of_simple hsimple (by simp [Value.Fits])

end Patterns

namespace Settings

/-- The numbers of settings fit where they are kept. -/
structure InRange (s : Settings) : Prop where
  poll : s.pollMillis ≤ largestNumber
  grace : s.graceMillis ≤ largestNumber
  attempts : s.attempts ≤ largestAttempts

lemma ofTree_toTree {s : Settings} (h : s.InRange) :
    ofTree d (Value.mapping s.toEntries).toTree = .ok s := by
  have hnames : (s.toEntries.map Prod.fst).Nodup := by simp [toEntries]
  have hnumber : ∀ name largest k, (name, .number k) ∈ s.toEntries → k ≤ largest →
      largest ≤ largestNumber →
      field? (fieldTrees s.toEntries) name (asNumber largest d) = .ok (some k) :=
    fun name largest k hmem hk hlargest => field?_of_mem hnames hmem (asNumber_toTree hk hlargest)
  rw [ofTree, asFields_toTree]
  simp only [bind, Except.bind]
  rw [hnumber "poll_interval_ms" _ s.pollMillis (by simp [toEntries]) h.poll le_rfl,
    hnumber "rotation_grace_ms" _ s.graceMillis (by simp [toEntries]) h.grace le_rfl,
    hnumber "rotation_attempts" _ s.attempts (by simp [toEntries]) h.attempts (by decide),
    field?_of_mem hnames (v := s.patterns.toValue) (by simp [toEntries]) s.patterns.ofTree_toTree]
  rfl

lemma entriesFit_toEntries (s : Settings) : EntriesFit s.toEntries := by
  have hsimple : ∀ e ∈ s.toEntries, isSimpleKey e.1 = true := by
    simp only [toEntries, List.forall_mem_cons]
    decide
  exact entriesFit_of_simple hsimple (by simp [toEntries, Value.Fits, Patterns.fits_toValue])

end Settings

namespace Command

lemma ofTree_toTree (c : Command) : ofTree d (Value.mapping c.toEntries).toTree = .ok c := by
  have hnames : (c.toEntries.map Prod.fst).Nodup := by simp [toEntries]
  rw [ofTree, asFields_toTree]
  simp only [bind, Except.bind]
  rw [field?_text hnames (t := c.program) (by simp [toEntries]),
    field?_of_mem hnames (v := .list c.args) (a := c.args) (by simp [toEntries])
      (asTexts_toTree c.args),
    field?_of_mem hnames (v := envValue c.env) (a := c.env) (by simp [toEntries, envValue]) ?env,
    field?_of_mem hnames (v := optional c.currentDir) (by simp [toEntries])
      (asOptionalText_toTree c.currentDir)]
  case env => exact asEnv_toTree c.env
  rfl

lemma fits_optional (o : Option String) : (optional o).Fits := by
  cases o <;> trivial

lemma entriesFit_toEntries (c : Command) : EntriesFit c.toEntries := by
  have hsimple : ∀ e ∈ c.toEntries, isSimpleKey e.1 = true := by
    simp only [toEntries, List.forall_mem_cons]
    decide
  have henv := entriesFit_of_texts c.env.entries
  exact entriesFit_of_simple hsimple (by simp [toEntries, Value.Fits, fits_optional, henv])

end Command

namespace NodeSettings

/-- The time that a node has to shut down fits where it is kept. -/
def InRange (s : NodeSettings) : Prop := s.shutdownMillis ≤ largestNumber

lemma ofTree_toTree {s : NodeSettings} (h : s.InRange) :
    ofTree d (Value.mapping s.toEntries).toTree = .ok s := by
  have hnames : (s.toEntries.map Prod.fst).Nodup := by simp [toEntries]
  rw [ofTree, asFields_toTree]
  simp only [bind, Except.bind]
  rw [field_of_mem hnames (v := .mapping s.command.toEntries) (by simp [toEntries])
      s.command.ofTree_toTree,
    field_of_mem hnames (v := .text s.logDir) (by simp [toEntries]) (asText_textTree s.logDir),
    field?_of_mem hnames (v := Command.optional s.dataDir) (by simp [toEntries])
      (asOptionalText_toTree s.dataDir),
    field?_of_mem hnames (v := .number s.shutdownMillis) (by simp [toEntries])
      (asNumber_toTree h le_rfl)]
  rfl

lemma entriesFit_toEntries (s : NodeSettings) : EntriesFit s.toEntries := by
  have hsimple : ∀ e ∈ s.toEntries, isSimpleKey e.1 = true := by
    simp only [toEntries, List.forall_mem_cons]
    decide
  exact entriesFit_of_simple hsimple
    (by simp [toEntries, Value.Fits, Command.fits_optional, Command.entriesFit_toEntries])

end NodeSettings

namespace HarnessSettings

/-- The numbers of a harness's settings are those of its parts. -/
structure InRange (s : HarnessSettings) : Prop where
  node : s.node.InRange
  listener : s.listener.InRange

lemma ofTree_toTree {s : HarnessSettings} (h : s.InRange) :
    ofTree d (Value.mapping s.toEntries).toTree = .ok s := by
  have hnames : (s.toEntries.map Prod.fst).Nodup := by simp [toEntries]
  rw [ofTree, asFields_toTree]
  simp only [bind, Except.bind]
  rw [field_of_mem hnames (v := .mapping s.node.toEntries) (by simp [toEntries])
      (NodeSettings.ofTree_toTree h.node),
    field?_of_mem hnames (v := .mapping s.listener.toEntries) (by simp [toEntries])
      (Settings.ofTree_toTree h.listener),
    field?_text hnames (t := s.logLevel) (by simp [toEntries])]
  rfl

lemma entriesFit_toEntries (s : HarnessSettings) : EntriesFit s.toEntries := by
  have hsimple : ∀ e ∈ s.toEntries, isSimpleKey e.1 = true := by
    simp only [toEntries, List.forall_mem_cons]
    decide
  exact entriesFit_of_simple hsimple (by simp [toEntries, Value.Fits,
    NodeSettings.entriesFit_toEntries, Settings.entriesFit_toEntries])

end HarnessSettings

/-! ### Documents -/

lemma Yaml.parse_render_of_tree {α : Type} {read : Document → Tree → Except YamlError α}
    {es : List (String × Value)} {a : α} (hfits : EntriesFit es) (hne : es ≠ [])
    (hread : ∀ d, read d (Value.mapping es).toTree = .ok a) :
    Yaml.parse read (render es) = .ok a := by
  rw [Yaml.parse, parse_render hfits hne]
  exact hread _

/-- What was read is handed on exactly if its check finds no fault, and otherwise refused for that
fault. -/
lemma load_of_parse {α ε : Type} {read : Document → Tree → Except YamlError α}
    {fault? : α → Option ε} {text : String} {a : α} (hparse : Yaml.parse read text = .ok a) :
    (load read fault? text = .ok a ↔ fault? a = none) ∧
      ∀ e, fault? a = some e → load read fault? text = .error (.unusable e) := by
  simp only [load, hparse]
  cases fault? a <;> simp

/-- **Settings survive being written and read.** The document of a listener's settings, of a
command, of a node's settings or of a harness's is read to just what it was written for. Where what
is read is checked, it is handed on exactly if the check finds no fault with what was written, and
otherwise refused for the fault that the check finds. -/
theorem settings_survive :
    (∀ s : Settings, s.InRange →
      Yaml.parse Settings.ofTree (render s.toEntries) = .ok s ∧
      (load Settings.ofTree Settings.fault? (render s.toEntries) = .ok s ↔ s.fault? = none) ∧
      ∀ e, s.fault? = some e →
        load Settings.ofTree Settings.fault? (render s.toEntries) = .error (.unusable e)) ∧
    (∀ c : Command, Yaml.parse Command.ofTree (render c.toEntries) = .ok c) ∧
    (∀ s : NodeSettings, s.InRange →
      Yaml.parse NodeSettings.ofTree (render s.toEntries) = .ok s) ∧
    (∀ s : HarnessSettings, s.InRange →
      Yaml.parse HarnessSettings.ofTree (render s.toEntries) = .ok s ∧
      (load HarnessSettings.ofTree HarnessSettings.fault? (render s.toEntries) = .ok s ↔
        s.fault? = none) ∧
      ∀ e, s.fault? = some e →
        load HarnessSettings.ofTree HarnessSettings.fault? (render s.toEntries) =
          .error (.unusable e)) := by
  refine ⟨fun s hs => ?_, fun c => ?_, fun s hs => ?_, fun s hs => ?_⟩
  · have hparse : Yaml.parse Settings.ofTree (render s.toEntries) = .ok s :=
      parse_render_of_tree s.entriesFit_toEntries (List.cons_ne_nil _ _)
        fun _ => Settings.ofTree_toTree hs
    exact ⟨hparse, load_of_parse hparse⟩
  · exact parse_render_of_tree c.entriesFit_toEntries (List.cons_ne_nil _ _)
      fun _ => c.ofTree_toTree
  · exact parse_render_of_tree s.entriesFit_toEntries (List.cons_ne_nil _ _)
      fun _ => NodeSettings.ofTree_toTree hs
  · have hparse : Yaml.parse HarnessSettings.ofTree (render s.toEntries) = .ok s :=
      parse_render_of_tree s.entriesFit_toEntries (List.cons_ne_nil _ _)
        fun _ => HarnessSettings.ofTree_toTree hs
    exact ⟨hparse, load_of_parse hparse⟩

/-- Settings with texts that would read as something else, and without a program. -/
def HarnessSettings.misleading : HarnessSettings :=
  ⟨⟨⟨"", ["", "null", "0x1F", " a ", "k: v # c", "\n\n  b\n", "\x00\u2028", "--- d"],
      (Env.empty.insert "" "~").insert "a\n" "- c", some "null"⟩, "1e3", none, largestNumber⟩,
    .standard, "true"⟩

theorem misleading_settings_survive :
    (HarnessSettings.misleading.listener.InRange ∧
      Yaml.parse Settings.ofTree (render HarnessSettings.misleading.listener.toEntries) =
        .ok HarnessSettings.misleading.listener) ∧
    (HarnessSettings.misleading.node.InRange ∧
      Yaml.parse NodeSettings.ofTree (render HarnessSettings.misleading.node.toEntries) =
        .ok HarnessSettings.misleading.node) ∧
    (HarnessSettings.misleading.InRange ∧
      Yaml.parse HarnessSettings.ofTree (render HarnessSettings.misleading.toEntries) =
        .ok HarnessSettings.misleading ∧
      load HarnessSettings.ofTree HarnessSettings.fault?
        (render HarnessSettings.misleading.toEntries) =
          .error (.unusable (.settings "node.command.program is empty"))) := by
  have hlistener : HarnessSettings.misleading.listener.InRange :=
    ⟨by decide, by decide, by decide⟩
  have hnode : HarnessSettings.misleading.node.InRange := le_rfl
  have hall : HarnessSettings.misleading.InRange := ⟨hnode, hlistener⟩
  obtain ⟨hsettings, -, hnodes, hharness⟩ := settings_survive
  obtain ⟨hparse, -, hfault⟩ := hharness HarnessSettings.misleading hall
  exact ⟨⟨hlistener, (hsettings _ hlistener).1⟩, ⟨hnode, hnodes _ hnode⟩, hall, hparse,
    hfault _ rfl⟩

end LogWatch
