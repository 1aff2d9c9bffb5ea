import Mathlib
import LogWatch.Proofs.Event.Progress
import LogWatch.Proofs.LogFile.Chunks
import LogWatch.Proofs.Text.Quoted
import LogWatch.Proofs.Text.Utf8

/-!
Patterns in lines with damaged bytes.

A line is returned without its end and with a replacement character for each damaged part. A
pattern that is all within a line is found in what is returned just where its bytes are in the raw
line, whatever the bytes around it are.
-/

namespace LogWatch

/-! ### The next raw line -/

lemma Disk.isFolder_of_mem_bytes {d : Disk} {file : ℕ} {b : UInt8} (h : b ∈ d.bytes file) :
    d.isFolder file = false := by
  unfold bytes at h
  split at h
  · rename_i hfile
    rw [isFolder, hfile]
  · cases h

namespace Reader

variable {r : Reader} {d : Disk} {piece more : Bytes}

lemma nextRaw_of_newline (hleft : r.buffer ++ r.ahead d = piece ++ newline :: more)
    (hpiece : newline ∉ piece) :
    ∃ r', r.nextRaw d = .ok (r', some (r.fragment ++ piece ++ [newline])) := by
  have hmem : newline ∈ r.buffer ++ r.ahead d := by simp [hleft]
  unfold nextRaw
  -- the newline stands in the buffer, or all of the buffer comes before it
  cases hbuffer : cutLine r.buffer with
  | some x =>
    obtain ⟨line, rest⟩ := x
    obtain ⟨hsplit, start, rfl, hstart⟩ := cutLine_eq_some hbuffer
    rw [hsplit, List.append_assoc, List.append_assoc] at hleft
    obtain ⟨rfl, -⟩ := Text.append_cons_inj hstart hpiece hleft
    exact ⟨_, by rw [List.append_assoc]⟩
  | none =>
    have hahead : newline ∈ r.ahead d :=
      (List.mem_append.mp hmem).resolve_left (cutLine_eq_none hbuffer)
    have hfile : d.isFolder r.file = false :=
      Disk.isFolder_of_mem_bytes (List.mem_of_mem_drop hahead)
    cases hcut : cutLine (r.ahead d) with
    | none => exact absurd hahead (cutLine_eq_none hcut)
    | some x =>
      obtain ⟨line, rest⟩ := x
      obtain ⟨hsplit, start, rfl, hstart⟩ := cutLine_eq_some hcut
      have hclean : newline ∉ r.buffer ++ start := by
        simp [cutLine_eq_none hbuffer, hstart]
      rw [hsplit, ← List.append_assoc, ← List.append_assoc, List.append_assoc _ [newline]]
        at hleft
      obtain ⟨rfl, -⟩ := Text.append_cons_inj hclean hpiece hleft
      simp only [hfile, hcut, Bool.false_eq_true, if_false, List.append_assoc]
      exact ⟨_, rfl⟩

end Reader

/-! ### The end of a line -/

lemma infix_snoc_iff {α : Type} {p s : List α} {x : α} (h : x ∉ p) :
    p <:+: s ++ [x] ↔ p <:+: s := by
  rw [List.infix_concat_iff, or_iff_right_of_imp]
  intro hsuffix
  rcases List.suffix_concat_iff.mp hsuffix with rfl | ⟨t, rfl, -⟩
  · exact List.nil_infix
  · simp at h

lemma infix_trimEnd_iff {p : Bytes} (hreturn : Reader.carriageReturn ∉ p)
    (hnewline : Reader.newline ∉ p) (body : Bytes) :
    p <:+: Reader.trimEnd (body ++ [Reader.newline]) ↔ p <:+: body ++ [Reader.newline] := by
  rw [Reader.trimEnd_line, infix_snoc_iff hnewline, withoutReturn]
  split
  · rename_i hlast
    rw [← infix_snoc_iff hreturn, List.dropLast_append_getLast?]
    exact hlast
  · rfl

/-! ### A pattern in a line -/

namespace Progress

variable {q : Progress}

lemma gates_feed (h : q.satisfied = false) (line : String) :
    (q.feed line).1.gates = q.gates.map (·.light line.toList) := by
  by_cases hdark : q.lit line = []
  · rw [feed_dark hdark]
    have hnone := List.filterMap_eq_nil_iff.mp hdark
    refine (Array.ext' ?_).symm
    rw [Array.toList_map]
    refine (List.map_congr_left fun g hg => ?_).trans (List.map_id _)
    rw [Gate.light, hnone g hg]
    rfl
  · rw [feed_lit h hdark]

lemma labels_feed (h : q.satisfied = false) (line : String) : (q.feed line).2 = q.lit line := by
  by_cases hdark : q.lit line = []
  · rw [feed_dark hdark, hdark]
  · rw [feed_lit h hdark]

lemma latches {p line : String} (h : q.satisfied = false) {i : ℕ}
    (hleaf : q.gates[i]? = some (.leaf p false)) (hin : p.toList <:+: line.toList) :
    (q.feed line).1.gates[i]? = some (.leaf p true) ∧ p ∈ (q.feed line).2 := by
  have hoccurs := Text.occurs_iff.mpr hin
  constructor
  · rw [gates_feed h, Array.getElem?_map, hleaf, Option.map_some, Gate.light_leaf, hoccurs]
    rfl
  · rw [labels_feed h, lit, List.mem_filterMap]
    refine ⟨.leaf p false, Array.mem_toList_iff.mpr (Array.mem_of_getElem? hleaf), ?_⟩
    rw [Gate.lights?_leaf, hoccurs]
    rfl

end Progress

/-- The text that is returned for a raw line has a pattern if the raw line has its bytes, so a leaf
that waits for the pattern is lit; and only if, unless the pattern has replacement characters. -/
structure Conveys (raw : Bytes) (text p : String) : Prop where
  found : Text.encode p <:+: raw → p.toList <:+: text.toList
  latches : Text.encode p <:+: raw → ∀ (q : Progress) (i : ℕ), q.satisfied = false →
    q.gates[i]? = some (.leaf p false) →
      (q.feed text).1.gates[i]? = some (.leaf p true) ∧ p ∈ (q.feed text).2
  genuine : Text.replacement ∉ p.toList → p.toList <:+: text.toList → Text.encode p <:+: raw

lemma conveys_decodeLossy {p : String} (hreturn : '\r' ∉ p.toList) (hnewline : '\n' ∉ p.toList)
    (body : Bytes) : Conveys (body ++ [Reader.newline])
      (Text.decodeLossy (Reader.trimEnd (body ++ [Reader.newline]))) p := by
  have htrim := infix_trimEnd_iff (p := Text.encode p)
    (fun hmem => hreturn (Text.mem_of_mem_encode hmem (by decide)))
    (fun hmem => hnewline (Text.mem_of_mem_encode hmem (by decide))) body
  obtain ⟨hfound, hgenuine⟩ :=
    Text.infix_decodeLossy p (Reader.trimEnd (body ++ [Reader.newline]))
  refine ⟨fun h => hfound (htrim.mpr h), fun h q i hsat hleaf => ?_, fun hp h => ?_⟩
  · exact Progress.latches hsat hleaf (hfound (htrim.mpr h))
  · exact htrim.mp (hgenuine hp h)

/-- **Damaged bytes neither hide a pattern nor make one up.** Whatever a reader has before it up to
a newline, it returns a text for the raw line, and the text has a pattern within a line just if the
raw line has it. -/
theorem next_conveys_pattern {r : Reader} {d : Disk} {piece more : Bytes}
    (hleft : r.buffer ++ r.ahead d = piece ++ Reader.newline :: more)
    (hpiece : Reader.newline ∉ piece) {p : String} (hreturn : '\r' ∉ p.toList)
    (hnewline : '\n' ∉ p.toList) :
    ∃ r' text, r.next d = .ok (r', some text) ∧
      Conveys (r.fragment ++ piece ++ [Reader.newline]) text p := by
  obtain ⟨r', hraw⟩ := Reader.nextRaw_of_newline hleft hpiece
  have hnext := Reader.next_eq_ok.mpr ⟨_, hraw, rfl⟩
  exact ⟨r', _, hnext, conveys_decodeLossy hreturn hnewline _⟩

/-- A log with these bytes. -/
def Disk.withBytes (bytes : Bytes) : Disk :=
  ⟨#[.folder 1 [("log", 2)], .folder 1 [], .file bytes]⟩

/-- A character that is cut short comes before the pattern and a byte that is none after it. -/
theorem next_conveys_pattern_damaged :
    ∃ r' text, Reader.next ⟨"log", 2, 0, [], 0, [0xe2]⟩
        (.withBytes [0x82, 0x74, 0x78, 0xff, 0x0d, 0x0a]) = .ok (r', some text) ∧
      Conveys [0xe2, 0x82, 0x74, 0x78, 0xff, 0x0d, 0x0a] text "tx" ∧
      text = "\uFFFDtx\uFFFD" := by
  have hpiece : Reader.newline ∉ [0x82, 0x74, 0x78, 0xff, Reader.carriageReturn] := by decide
  obtain ⟨r', text, hnext, hconveys⟩ := @next_conveys_pattern ⟨"log", 2, 0, [], 0, [0xe2]⟩
    (.withBytes [0x82, 0x74, 0x78, 0xff, 0x0d, 0x0a]) _ [] rfl hpiece "tx" (by decide) (by decide)
  refine ⟨r', text, hnext, hconveys, ?_⟩
  have hread : (Reader.next ⟨"log", 2, 0, [], 0, [0xe2]⟩
      (.withBytes [0x82, 0x74, 0x78, 0xff, 0x0d, 0x0a])).toOption.map Prod.snd =
        some (some "\uFFFDtx\uFFFD") := by decide +kernel
  rw [hnext] at hread
  exact Option.some.inj (Option.some.inj hread)

end LogWatch
