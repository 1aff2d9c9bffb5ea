import Mathlib
import LogWatch.Proofs.Yaml.Structure
import LogWatch.Yaml.Tree

/-!
The tokens of a value are read back to its tree.

A reader is given a number that bounds how often readers call each other; the length of the tokens,
and a few more, are enough of it. What follows the tokens of a value matters only for a list, which
goes on as long as dashes follow.
-/

namespace LogWatch.Yaml

/-! ### Trees of values -/

def textTree (t : String) : Tree := .scalar t (formOf t) none

mutual

/-- The tree that a value is written for. -/
def Value.toTree : Value → Tree
  | .null => .scalar "null" .plain none
  | .number k => .scalar (String.ofList (Nat.toDigits 10 k)) .plain none
  | .text t => textTree t
  | .list ts => .sequence (ts.map textTree)
  | .mapping es => .mapping (entryTrees es)

def entryTrees : List (String × Value) → List (Tree × Tree)
  | [] => []
  | (k, v) :: es => (textTree k, v.toTree) :: entryTrees es

end

/-! ### Readers -/

/-- The same reading with these tokens to come. -/
def Reading.left (r : Reading) (ts : List Token) : Reading := { r with tokens := ts }

namespace Read

variable {α β : Type} {r r' r'' : Reading} {ts rest : List Token} {t : Token} {n : ℕ}
  {block indentless : Bool} {item key value : Tree} {items : List Tree}
  {entries : List (Tree × Tree)}

lemma bind_of_ok {m : Read α} {f : α → Read β} {a : α} (h : m r = .ok (a, r')) :
    (m >>= f) r = f a r' := by
  have hbind : (m >>= f) r = (m r >>= fun x => f x.1 x.2) := rfl
  rw [hbind, h]
  rfl

lemma map_of_ok {m : Read α} {f : α → β} {a : α} (h : m r = .ok (a, r')) :
    (f <$> m) r = .ok (f a, r') := by
  rw [← bind_pure_comp]
  exact bind_of_ok h

lemma node_scalar (r : Reading) (n : ℕ) (text : List Char) (form : Form) (rest : List Token) :
    node block indentless (n + 1) (r.left (.scalar text form :: rest)) =
      .ok (.scalar (String.ofList text) form none, r.left rest) := rfl

lemma node_textToken (r : Reading) (n : ℕ) (t : String) (rest : List Token) :
    node block indentless (n + 1) (r.left (textToken t :: rest)) =
      .ok (textTree t, r.left rest) := by
  rw [textToken, node_scalar, String.ofList_toList, textTree]

lemma peek_left (r : Reading) (ts : List Token) :
    peek (r.left ts) = .ok (ts.head?, r.left ts) := rfl

lemma skip_left (r : Reading) (t : Token) (ts : List Token) :
    skip (r.left (t :: ts)) = .ok ((), r.left ts) := rfl

lemma node_items (h : indentlessItems n (r.left (.blockEntry :: rest)) = .ok (items, r')) :
    node block true (n + 1) (r.left (.blockEntry :: rest)) = .ok (.sequence items, r') := by
  have hnode : node block true (n + 1) (r.left (.blockEntry :: rest)) =
      ((.sequence <$> indentlessItems n : Read Tree) >>= pure) (r.left (.blockEntry :: rest)) := rfl
  rw [hnode, bind_pure, map_of_ok h]

lemma node_entries (h : blockEntries n (r.left rest) = .ok (entries, r')) :
    node true indentless (n + 1) (r.left (.blockMappingStart :: rest)) =
      .ok (.mapping entries, r') := by
  have hnode : node true indentless (n + 1) (r.left (.blockMappingStart :: rest)) =
      ((.mapping <$> blockEntries n : Read Tree) >>= pure) (r.left rest) := rfl
  rw [hnode, bind_pure, map_of_ok h]

lemma nodeUnless_of_not_mem {ends : List Token} (ht : t ∉ ends) :
    nodeUnless ends block indentless (n + 1) (r.left (t :: rest)) =
      node block indentless n (r.left (t :: rest)) := by
  have hnode : nodeUnless ends block indentless (n + 1) (r.left (t :: rest)) =
      (if ends.contains t then pure (.empty none) else node block indentless n : Read Tree)
        (r.left (t :: rest)) := rfl
  rw [hnode, if_neg (by simpa using ht)]

lemma indentlessItems_of_ne (hrest : rest.head? ≠ some .blockEntry) :
    indentlessItems (n + 1) (r.left rest) = .ok ([], r.left rest) := by
  cases rest with
  | nil => rfl
  | cons t rest =>
    cases t with
    | blockEntry => exact absurd rfl hrest
    | _ => rfl

lemma indentlessItems_cons
    (hitem : nodeUnless [.blockEntry, .key, .value, .blockEnd] true false n (r.left rest) =
      .ok (item, r'))
    (hitems : indentlessItems n r' = .ok (items, r'')) :
    indentlessItems (n + 1) (r.left (.blockEntry :: rest)) = .ok (item :: items, r'') := by
  have hcons : indentlessItems (n + 1) (r.left (.blockEntry :: rest)) =
      (nodeUnless [.blockEntry, .key, .value, .blockEnd] true false n >>= fun item => do
        return item :: (← indentlessItems n)) (r.left rest) := rfl
  rw [hcons, bind_of_ok hitem, bind_of_ok hitems]
  rfl

lemma blockEntries_end (r : Reading) (n : ℕ) (rest : List Token) :
    blockEntries (n + 1) (r.left (.blockEnd :: rest)) = .ok ([], r.left rest) := rfl

lemma blockEntries_cons
    (hkey : nodeUnless [.key, .value, .blockEnd] true true n (r.left rest) =
      .ok (key, r'.left (.value :: ts)))
    (hvalue : nodeUnless [.key, .value, .blockEnd] true true n (r'.left ts) = .ok (value, r''))
    {s : Reading} (hentries : blockEntries n r'' = .ok (entries, s)) :
    blockEntries (n + 1) (r.left (.key :: rest)) = .ok ((key, value) :: entries, s) := by
  rw [blockEntries, bind_of_ok (peek_left r _)]
  dsimp only [List.head?_cons]
  rw [bind_of_ok (skip_left r _ _), bind_of_ok hkey, bind_of_ok (peek_left r' _)]
  dsimp only [List.head?_cons]
  rw [bind_of_ok (skip_left r' _ _), bind_of_ok hvalue, bind_of_ok hentries]
  rfl

/-! ### Values -/

lemma indentlessItems_itemTokens (ts : List String) {rest : List Token}
    (hrest : rest.head? ≠ some .blockEntry) (r : Reading) {n : ℕ}
    (hn : (itemTokens ts).length + 2 ≤ n) :
    indentlessItems n (r.left (itemTokens ts ++ rest)) = .ok (ts.map textTree, r.left rest) := by
  induction ts generalizing n with
  | nil =>
    obtain ⟨n, rfl⟩ : ∃ m, n = m + 1 := ⟨n - 1, by omega⟩
    exact indentlessItems_of_ne hrest
  | cons t ts ih =>
    rw [itemTokens, List.length_cons, List.length_cons] at hn
    obtain ⟨n, rfl⟩ : ∃ m, n = m + 3 := ⟨n - 3, by omega⟩
    refine indentlessItems_cons ?_ (ih (by omega))
    exact (nodeUnless_of_not_mem (by simp [textToken])).trans (node_textToken r n t _)

lemma exists_valueTokens (v : Value) :
    ∃ t ts, valueTokens v = t :: ts ∧ t ∉ [Token.key, .value, .blockEnd] := by
  rcases v with _ | _ | _ | (_ | _) | (_ | _) <;>
    exact ⟨_, _, rfl, by simp [textToken]⟩

mutual

lemma node_valueTokens (v : Value) {rest : List Token} (hrest : rest.head? ≠ some .blockEntry)
    (r : Reading) {n : ℕ} (hn : (valueTokens v).length + 3 ≤ n) :
    node true true n (r.left (valueTokens v ++ rest)) = .ok (v.toTree, r.left rest) := by
  obtain ⟨n, rfl⟩ : ∃ m, n = m + 2 := ⟨n - 2, by omega⟩
  match v with
  | .null => rfl
  | .number k => rfl
  | .text t => exact node_textToken r _ t rest
  | .list [] => rfl
  | .list (t :: ts) =>
    have hsize : (itemTokens (t :: ts)).length + 3 ≤ n + 2 := by simpa [valueTokens] using hn
    have hitems := indentlessItems_itemTokens (t :: ts) hrest r (n := n + 1) (by omega)
    simpa [valueTokens, itemTokens, Value.toTree] using node_items hitems
  | .mapping [] => rfl
  | .mapping (e :: es) =>
    have hsize : (entryTokens (e :: es)).length + 5 ≤ n + 2 := by
      simpa [valueTokens, Nat.add_assoc] using hn
    have hentries := blockEntries_entryTokens (e :: es) rest r (n := n + 1) (by omega)
    simpa [valueTokens, Value.toTree] using node_entries hentries

lemma blockEntries_entryTokens (es : List (String × Value)) (rest : List Token) (r : Reading)
    {n : ℕ} (hn : (entryTokens es).length + 4 ≤ n) :
    blockEntries n (r.left (entryTokens es ++ .blockEnd :: rest)) =
      .ok (entryTrees es, r.left rest) := by
  match es with
  | [] =>
    obtain ⟨n, rfl⟩ : ∃ m, n = m + 1 := ⟨n - 1, by omega⟩
    exact blockEntries_end r n rest
  | (k, v) :: es =>
    have hsize : (valueTokens v).length + (entryTokens es).length + 7 ≤ n := by
      simp only [entryTokens, List.length_cons, List.length_append] at hn
      omega
    obtain ⟨n, rfl⟩ : ∃ m, n = m + 3 := ⟨n - 3, by omega⟩
    obtain ⟨t, ts, htokens, ht⟩ := exists_valueTokens v
    obtain ⟨more, hmore⟩ : ∃ more, more = entryTokens es ++ .blockEnd :: rest := ⟨_, rfl⟩
    have hkey : nodeUnless [.key, .value, .blockEnd] true true (n + 2)
        (r.left (textToken k :: .value :: (valueTokens v ++ more))) =
        .ok (textTree k, r.left (.value :: (valueTokens v ++ more))) :=
      (nodeUnless_of_not_mem (by simp [textToken])).trans (node_textToken r n k _)
    -- a list that is not indented would go on with an item, so none may follow
    have hnext : more.head? ≠ some .blockEntry := by
      cases es <;> simp [hmore, entryTokens]
    have hvalue : nodeUnless [.key, .value, .blockEnd] true true (n + 2)
        (r.left (valueTokens v ++ more)) = .ok (v.toTree, r.left more) := by
      have hnode := node_valueTokens v hnext r (n := n + 1) (by omega)
      rw [htokens, List.cons_append] at hnode ⊢
      exact (nodeUnless_of_not_mem ht).trans hnode
    have hentries := blockEntries_entryTokens es rest r (n := n + 2) (by omega)
    rw [← hmore] at hentries
    have hall := blockEntries_cons hkey hvalue hentries
    simpa [entryTokens, entryTrees, hmore] using hall

end

end Read

lemma Document.ofTokens?_of_node {ts : List Token} {root : Tree}
    (hnode : Read.node true false (4 * (ts.length + 1) + 4)
      ⟨.blockMappingStart :: ts, Read.standardHandles, [], 0, []⟩ =
        .ok (root, ⟨[], Read.standardHandles, [], 0, []⟩)) :
    Document.ofTokens? (.blockMappingStart :: ts) = .ok ⟨root, []⟩ := by
  have hdirectives : Read.directives false [] (.blockMappingStart :: ts) =
      .ok ([], .blockMappingStart :: ts) := rfl
  have himplicit : Read.endsDocument (Token.blockMappingStart :: ts).head? = false := rfl
  have hrun : (Read.node true false (4 * (Token.blockMappingStart :: ts).length + 4)).run
      ⟨.blockMappingStart :: ts, [] ++ Read.standardHandles, [], 0, []⟩ =
      .ok (root, ⟨[], Read.standardHandles, [], 0, []⟩) := hnode
  simp only [Document.ofTokens?, List.isEmpty_cons, hdirectives, himplicit, bind, Except.bind,
    Bool.false_and, Bool.not_false, Bool.false_eq_true, if_true, if_false, hrun, pure, Except.pure]
  rfl

/-- **What is written of a mapping is read back to its tree.** -/
theorem parse_render {es : List (String × Value)} (hfits : EntriesFit es) (hne : es ≠ []) :
    Document.parse (render es) = .ok ⟨(Value.mapping es).toTree, []⟩ := by
  have hentries := Read.blockEntries_entryTokens es [] ⟨[], Read.standardHandles, [], 0, []⟩
    (n := 4 * ((entryTokens es ++ [Token.blockEnd]).length + 1) + 3) (by simp; omega)
  rw [Document.parse, scan_render hfits hne]
  exact Document.ofTokens?_of_node (Read.node_entries hentries)

end LogWatch.Yaml
