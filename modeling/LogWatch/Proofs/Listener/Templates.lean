import Mathlib
import LogWatch.Listener.Settings
import LogWatch.Proofs.Text.Filling

/-!
What the events about a transaction wait for.

A template is filled at its placeholders and nowhere else. Settings whose templates have one let
the pattern of an event tell the hash of its transaction: it stands in the pattern, and another hash
makes another event.
-/

namespace LogWatch.Patterns

variable {template : String} {pieces : List (List Char)} {p : Patterns}

lemma placeholder_ne_nil : placeholder.toList ≠ [] := by decide

lemma toList_render (h : Text.Cut placeholder.toList template.toList pieces) (hash : String) :
    (render template hash).toList = hash.toList.intercalate pieces := by
  rw [render, String.toList_ofList, Text.fill_eq_intercalate placeholder_ne_nil h]

lemma exists_render_eq (h : hasPlaceholder template = true) :
    ∃ pieces : List (List Char), 2 ≤ pieces.length ∧
      ∀ hash, (render template hash).toList = hash.toList.intercalate pieces := by
  obtain ⟨pieces, hcut⟩ := Text.exists_cut placeholder_ne_nil template.toList
  exact ⟨pieces, hcut.two_le_length (Text.occurs_iff.mp h), toList_render hcut⟩

lemma infix_render (h : hasPlaceholder template = true) (hash : String) :
    hash.toList <:+: (render template hash).toList := by
  obtain ⟨pieces, hpieces, hrender⟩ := exists_render_eq h
  rw [hrender]
  exact Text.infix_intercalate hpieces

lemma render_injective (h : hasPlaceholder template = true) :
    Function.Injective (render template) := by
  obtain ⟨pieces, hpieces, hrender⟩ := exists_render_eq h
  intro a b hab
  have hlists := congrArg String.toList hab
  rw [hrender, hrender] at hlists
  exact String.toList_injective (Text.intercalate_inj hpieces hlists)

lemma hasPlaceholder_of_fault? (h : p.fault? = none) :
    hasPlaceholder p.transactionSealed = true ∧ hasPlaceholder p.transactionRejected = true := by
  unfold fault? at h
  split_ifs at h with _ _ hsealed hrejected
  simp only [Bool.not_eq_true', Bool.not_eq_false] at hsealed hrejected
  exact ⟨hsealed, hrejected⟩

/-- How a template is filled. -/
structure Fills (template : String) : Prop where
  /-- There is one way to cut it at its placeholders. -/
  cut : ∃! pieces, Text.Cut placeholder.toList template.toList pieces
  /-- It is its pieces with placeholders between them, and filled it has the hash there. -/
  filled : ∀ pieces, Text.Cut placeholder.toList template.toList pieces →
    template.toList = placeholder.toList.intercalate pieces ∧
      ∀ hash, (render template hash).toList = hash.toList.intercalate pieces

/-- That the events about a transaction tell its hash. -/
structure Telling (p : Patterns) : Prop where
  sealed : ∀ hash, hash.toList <:+: (render p.transactionSealed hash).toList
  rejected : ∀ hash, hash.toList <:+: (render p.transactionRejected hash).toList
  /-- No pattern that is waited for is empty. -/
  processed : ∀ hash, hash ≠ "" → ∀ leaf ∈ (p.processedEvent hash).patterns, leaf ≠ ""
  sealedEvent : Function.Injective p.sealedEvent
  rejectedEvent : Function.Injective p.rejectedEvent

lemma ne_empty_of_infix {a b : String} (h : a.toList <:+: b.toList) (ha : a ≠ "") : b ≠ "" := by
  rintro rfl
  exact ha (String.toList_injective (List.infix_nil.mp h))

lemma telling_of_fault? (h : p.fault? = none) : Telling p where
  sealed := infix_render (hasPlaceholder_of_fault? h).1
  rejected := infix_render (hasPlaceholder_of_fault? h).2
  processed hash hne leaf hleaf := by
    simp only [processedEvent, sealedEvent, rejectedEvent, Event.patterns, List.singleton_append,
      List.mem_cons, List.not_mem_nil, or_false] at hleaf
    rcases hleaf with rfl | rfl
    · exact ne_empty_of_infix (infix_render (hasPlaceholder_of_fault? h).1 hash) hne
    · exact ne_empty_of_infix (infix_render (hasPlaceholder_of_fault? h).2 hash) hne
  sealedEvent a b hab := render_injective (hasPlaceholder_of_fault? h).1 (Event.pattern.inj hab)
  rejectedEvent a b hab := render_injective (hasPlaceholder_of_fault? h).2 (Event.pattern.inj hab)

/-- **Templates are filled exactly, and the events made of them tell hashes apart** if the settings
are fit for use. -/
theorem templates_tell_hashes :
    (∀ template, Fills template) ∧ ∀ p : Patterns, p.fault? = none → Telling p := by
  refine ⟨fun template => ⟨?_, fun pieces h => ⟨h.intercalate_eq.symm, toList_render h⟩⟩,
    fun p h => telling_of_fault? h⟩
  exact Text.existsUnique_cut placeholder_ne_nil template.toList

/-- Templates in which a hash could make a new placeholder. -/
def tricky : Patterns :=
  ⟨"p2p", "sealing", "\x7bha" ++ placeholder ++ "sh\x7d" ++ placeholder, placeholder⟩

/-- Of two hashes that are placeholders or parts of one, each makes an event of its own. -/
theorem tricky_tells_hashes :
    tricky.fault? = none ∧ Telling tricky ∧
      tricky.sealedEvent placeholder ≠ tricky.sealedEvent "\x7bhash" := by
  have hfit : tricky.fault? = none := by decide +kernel
  have htelling : Telling tricky := templates_tell_hashes.2 tricky hfit
  exact ⟨hfit, htelling, htelling.sealedEvent.ne (by decide)⟩

end LogWatch.Patterns
