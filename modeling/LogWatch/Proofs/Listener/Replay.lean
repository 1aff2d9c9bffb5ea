import Mathlib
import LogWatch.Proofs.Listener.Chapters

/-!
How often a line is dispatched.

A follower that goes on after a rotation opens the file that it finds then, from its top, whatever
it was. As long as that is always another file, no line is dispatched twice. But it may be the file
that was read before: then all its lines are dispatched again, and those that were there when the
listener was attached are dispatched too.
-/

namespace LogWatch

namespace Chapter

/-- The lines of chapters as lines of files: which file each is of, and where in it it ends. -/
def places (cs : List Chapter) : List (Option ℕ × ℕ) :=
  cs.flatMap fun c => c.lines.map fun x => (some c.file, x.stop)

lemma places_cons (c : Chapter) (cs : List Chapter) :
    places (c :: cs) = (c.lines.map fun x => (some c.file, x.stop)) ++ places cs :=
  List.flatMap_cons

lemma map_sent {cs : List Chapter} {files : List ℕ}
    (h : ∀ (g : ℕ) (c : Chapter), cs[g]? = some c → files[g]? = some c.file) :
    (sent cs).map (fun x => (files[x.2.generation]?, x.2.offset)) = places cs := by
  induction cs using List.reverseRecOn with
  | nil => rfl
  | append_singleton past now ih =>
    have hpast := ih fun g c hc => h g c (getElem?_snoc_eq_some.mpr (.inl hc))
    have hnow := h past.length now (getElem?_snoc_eq_some.mpr (.inr ⟨rfl, rfl⟩))
    have hplaces : places (past ++ [now]) =
        places past ++ now.lines.map fun x => (some now.file, x.stop) := by
      rw [places, List.flatMap_append, List.flatMap_singleton]
      rfl
    rw [sent_snoc, List.map_append, hpast, hplaces, List.map_map]
    refine congrArg _ (List.map_congr_left fun x _ => ?_)
    exact Prod.ext hnow rfl

section Count

variable {c : Chapter} {d : Disk} {file stop : ℕ}

lemma Fits.count_le (h : c.Fits d) (file stop : ℕ) :
    (c.lines.map fun x => (some c.file, x.stop)).count (some file, stop) ≤
      if c.file = file then 1 else 0 := by
  split
  · have hsorted := (linesFrom_pairwise _ _).sublist h.lines_isPrefix.sublist
    refine List.nodup_iff_count_le_one.mp ?_ _
    rw [List.Nodup, List.pairwise_map]
    exact hsorted.imp fun hlt heq => hlt.ne (congrArg Prod.snd heq)
  · rename_i hne
    rw [Nat.le_zero, List.count_eq_zero]
    intro hmem
    obtain ⟨x, -, hx⟩ := List.mem_map.mp hmem
    exact hne (Option.some.inj (congrArg Prod.fst hx))

lemma Fits.count_eq_zero (h : c.Fits d) (hstop : stop ≤ c.start) (file : ℕ) :
    (c.lines.map fun x => (some c.file, x.stop)).count (some file, stop) = 0 := by
  rw [List.count_eq_zero]
  intro hmem
  obtain ⟨x, hx, hplace⟩ := List.mem_map.mp hmem
  have hlt := start_lt_stop (h.lines_isPrefix.subset hx)
  have hxstop : x.stop = stop := congrArg Prod.snd hplace
  omega

lemma count_places_le {cs : List Chapter} (h : ∀ c ∈ cs, c.Fits d) (file stop : ℕ) :
    (places cs).count (some file, stop) ≤ (cs.map (·.file)).count file := by
  induction cs with
  | nil => exact le_rfl
  | cons c cs ih =>
    have hc := (h c List.mem_cons_self).count_le file stop
    have hcs := ih fun c' hc' => h c' (List.mem_cons_of_mem _ hc')
    rw [places_cons, List.count_append, List.map_cons, List.count_cons]
    simp only [beq_iff_eq]
    omega

/-- A line that ends before the start of the first chapter comes at most once for each later chapter
of the file. -/
lemma count_places_lt {cs : List Chapter} (h : ∀ c ∈ cs, c.Fits d)
    (hfirst : cs[0]? = some c) (hfile : c.file = file) (hstop : stop ≤ c.start) :
    (places cs).count (some file, stop) < (cs.map (·.file)).count file := by
  cases cs with
  | nil => simp at hfirst
  | cons c' cs =>
    obtain rfl : c' = c := Option.some.inj hfirst
    have hnone := (h c' List.mem_cons_self).count_eq_zero hstop file
    have hcs := count_places_le (fun c hc => h c (List.mem_cons_of_mem _ hc)) file stop
    rw [places_cons, List.count_append, hnone, List.map_cons, hfile, List.count_cons_self]
    omega

end Count

end Chapter

namespace World

/-- The lines that are dispatched in a run as lines of files: which of the files that the follower
held each is of, and where in it it ends. -/
def places (w : World) (moves : List Move) : List (Option ℕ × ℕ) :=
  (w.dispatched moves).map fun x => ((w.held ++ w.opened moves)[x.2.generation]?, x.2.offset)

variable {d : Disk} {l : Listener} {moves : List Move} {chapters : List Chapter}

lemma Recounts.places_eq (h : Recounts d l moves chapters) :
    (begin d l).places moves = Chapter.places chapters := by
  rw [places, ← h.sent_eq, ← h.files_eq]
  refine Chapter.map_sent fun g c hc => ?_
  rw [List.getElem?_map, hc]
  rfl

lemma Recounts.exists_of_mem_places (h : Recounts d l moves chapters) {place : Option ℕ × ℕ}
    (hplace : place ∈ (begin d l).places moves) : ∃ file stop, place = (some file, stop) := by
  rw [h.places_eq, Chapter.places, List.mem_flatMap] at hplace
  obtain ⟨c, -, hmem⟩ := hplace
  obtain ⟨x, -, rfl⟩ := List.mem_map.mp hmem
  exact ⟨c.file, x.stop, rfl⟩

lemma Recounts.placed_mem (h : Recounts d l moves chapters) {g n : ℕ} {c : Chapter}
    (hc : chapters[g]? = some c) (hend : (g, n) ∈ (begin d l).ends moves) {x : LogLine}
    (hx : x ∈ linesFrom c.start (((begin d l).run moves).disk.bytes c.file)) (hn : x.stop ≤ n) :
    x.placed g ∈ (begin d l).dispatched moves := by
  rw [← h.reached_eq] at hend
  obtain ⟨g', c', hc', hmem⟩ := Chapter.mem_layout.mp hend
  obtain ⟨n', hn', hpair⟩ := List.mem_map.mp hmem
  obtain ⟨rfl, rfl⟩ := Prod.mk.inj hpair
  obtain rfl := Option.some.inj (hc'.symm.trans hc)
  have hcovers := ((h.fits c' (List.mem_of_getElem? hc)).covers n' hn').2
  rw [← h.sent_eq, Chapter.placed_mem_sent hc]
  exact hcovers.subset ((mem_linesFrom_take hx).mpr hn)

lemma Recounts.count_le (h : Recounts d l moves chapters) (file stop : ℕ) :
    ((begin d l).places moves).count (some file, stop) ≤
      ((begin d l).held ++ (begin d l).opened moves).count file := by
  rw [h.places_eq, ← h.files_eq]
  exact Chapter.count_places_le h.fits file stop

/-- Lines that were there at the beginning are dispatched only of the first file when it is opened
again. -/
lemma Recounts.count_le_opened (h : Recounts d l moves chapters) {file stop : ℕ}
    (hheld : (begin d l).held = [file]) (hstop : stop ≤ d.size file) :
    ((begin d l).places moves).count (some file, stop) ≤ ((begin d l).opened moves).count file := by
  obtain ⟨c, hc, hfirst⟩ := h.exists_chapter (Nat.zero_le _)
  rw [hheld] at hfirst
  have hfile : c.file = file := (Option.some.inj hfirst).symm
  have hstart : stop ≤ c.start := by
    rw [h.start_eq 0 c hc, if_pos rfl, hfile]
    exact hstop
  have hlt := Chapter.count_places_lt h.fits hc hfile hstart
  rw [← h.places_eq, h.files_eq, hheld, List.singleton_append, List.count_cons_self] at hlt
  exact Nat.le_of_lt_succ hlt

lemma Recounts.nodup_places (h : Recounts d l moves chapters)
    (hnodup : ((begin d l).held ++ (begin d l).opened moves).Nodup) :
    ((begin d l).places moves).Nodup := by
  refine List.nodup_iff_count_le_one.mpr fun place => ?_
  by_cases hmem : place ∈ (begin d l).places moves
  · obtain ⟨file, stop, rfl⟩ := h.exists_of_mem_places hmem
    exact (h.count_le file stop).trans (List.nodup_iff_count_le_one.mp hnodup file)
  · rw [List.count_eq_zero.mpr hmem]
    exact Nat.zero_le 1

/-- **A line is dispatched at most once for each time that its file was opened,** and a line that
was complete when the listener was attached at most once for each time that this file was opened
again. Each time it is dispatched, if the follower comes to an end of the file past the line. So as
long as no file is opened twice no line is dispatched twice, and none that was there when the
listener was attached. -/
theorem dispatched_once_per_opening {s : Settings} {alive : Bool} {reported : Option String}
    (hattach : Listener.attach d s alive reported = .ok l)
    (happends : (begin d l).Appends (begin d l).held moves) :
    (∀ file stop, ((begin d l).places moves).count (some file, stop) ≤
      ((begin d l).held ++ (begin d l).opened moves).count file) ∧
    (∀ file ∈ (begin d l).held, ∀ stop ≤ d.size file,
      ((begin d l).places moves).count (some file, stop) ≤ ((begin d l).opened moves).count file) ∧
    (∀ g file n, ((begin d l).held ++ (begin d l).opened moves)[g]? = some file →
      (g, n) ∈ (begin d l).ends moves →
      ∀ x ∈ linesFrom (if g = 0 then d.size file else 0) (((begin d l).run moves).disk.bytes file),
        x.stop ≤ n → x.placed g ∈ (begin d l).dispatched moves) ∧
    (((begin d l).held ++ (begin d l).opened moves).Nodup →
      ((begin d l).places moves).Nodup ∧
      ∀ file ∈ (begin d l).held, ∀ stop ≤ d.size file,
        (some file, stop) ∉ (begin d l).places moves) := by
  rw [← List.append_nil moves] at happends
  obtain ⟨chapters, -, h, -⟩ := exists_recounts hattach happends
  have hagain : ∀ file ∈ (begin d l).held, ∀ stop ≤ d.size file,
      ((begin d l).places moves).count (some file, stop) ≤
        ((begin d l).opened moves).count file := by
    intro file hfile stop hstop
    obtain ⟨f, first, hheld, -⟩ := told_begin hattach
    obtain rfl : file = first := by rwa [hheld, List.mem_singleton] at hfile
    exact h.count_le_opened hheld hstop
  refine ⟨h.count_le, hagain, fun g file n hfile hend x hx hn => ?_, fun hnodup =>
    ⟨h.nodup_places hnodup, fun file hfile stop hstop => ?_⟩⟩
  · rw [← h.files_eq, List.getElem?_map] at hfile
    obtain ⟨c, hc, rfl⟩ := Option.map_eq_some_iff.mp hfile
    rw [← h.start_eq g c hc] at hx
    exact h.placed_mem hc hend hx hn
  -- with no file opened twice, the one of the beginning is not opened again
  · have hnone : ((begin d l).opened moves).count file = 0 := by
      rw [List.count_eq_zero]
      exact fun hopened => (List.nodup_append.mp hnodup).2.2 file hfile file hopened rfl
    have hcount := hagain file hfile stop hstop
    rw [hnone, Nat.le_zero, List.count_eq_zero] at hcount
    exact hcount

end World

lemma Disk.keeps_away (old : String) : (Disk.withLog old).Keeps 2 (.away old) :=
  keeps_rename (rfl : (Disk.withLog old).rename "log" "old" = .ok (.away old)) 2

lemma Disk.keeps_back (old : String) : (Disk.away old).Keeps 2 (.withLog old) :=
  keeps_rename (rfl : (Disk.away old).rename "old" "log" = .ok (.withLog old)) 2

/-- A line comes and is dispatched. The log is renamed, and back again before the follower goes on;
then it reads the log to its end. -/
def Move.awayAndBack : List Move :=
  [.files (.withLog "a\nb\n"), .follow 0, .follow 1, .follow 2, .files (.away "a\nb\n"),
    .answer (.path (some "log")), .follow 3, .files (.withLog "a\nb\n"),
    .answer (.path (some "log")), .follow 4, .follow 5, .follow 6, .follow 7, .follow 8]

namespace World

lemma appends_awayAndBack :
    (begin (.withLog "a\n") (.atEnd 2)).Appends [2] Move.awayAndBack := by
  refine ⟨?_, trivial, trivial, trivial, ?_, trivial, trivial, ?_, trivial, trivial, trivial,
    trivial, trivial, trivial, trivial⟩
  · intro file hfile
    rw [List.mem_singleton.mp hfile]
    exact Disk.keeps_withLog "b\n".toUTF8.data.toList (by decide +kernel)
  · intro file hfile
    obtain rfl := List.mem_singleton.mp (show file ∈ [2] from hfile)
    exact Disk.keeps_away "a\nb\n"
  · intro file hfile
    obtain rfl := List.mem_singleton.mp (show file ∈ [2] from hfile)
    exact Disk.keeps_back "a\nb\n"

/-- The log that the follower finds is the one that it has read, and it reads it again: the line
that was there when the listener was attached is dispatched, and the other one a second time. -/
theorem replayed_when_renamed_back :
    (begin (.withLog "a\n") (.atEnd 2)).Appends (begin (.withLog "a\n") (.atEnd 2)).held
        Move.awayAndBack ∧
    linesFrom 0 ((Disk.withLog "a\n").bytes 2) = [⟨"a", 2⟩] ∧
    (begin (.withLog "a\n") (.atEnd 2)).dispatched Move.awayAndBack =
      [("b", ⟨0, 4⟩), ("a", ⟨1, 2⟩), ("b", ⟨1, 4⟩)] ∧
    ¬ ((begin (.withLog "a\n") (.atEnd 2)).places Move.awayAndBack).Nodup ∧
    (some 2, 2) ∈ (begin (.withLog "a\n") (.atEnd 2)).places Move.awayAndBack := by
  refine ⟨appends_awayAndBack, by decide +kernel, by decide +kernel, ?_⟩
  have hplaces : (begin (.withLog "a\n") (.atEnd 2)).places Move.awayAndBack =
      [(some 2, 4), (some 2, 2), (some 2, 4)] := by
    decide +kernel
  rw [hplaces]
  exact ⟨by decide, by decide⟩

/-- The line that came after the listener was attached is dispatched both times that the log was
opened, and that is as often as can be. -/
theorem dispatched_once_per_opening_twice :
    LogLine.placed 0 ⟨"b", 4⟩ ∈ (begin (.withLog "a\n") (.atEnd 2)).dispatched Move.awayAndBack ∧
    LogLine.placed 1 ⟨"b", 4⟩ ∈ (begin (.withLog "a\n") (.atEnd 2)).dispatched Move.awayAndBack ∧
    ((begin (.withLog "a\n") (.atEnd 2)).places Move.awayAndBack).count (some 2, 4) ≤ 2 := by
  have hattach : Listener.attach (.withLog "a\n") .standard true (some "log") =
    .ok (.atEnd 2) := rfl
  obtain ⟨honce, -, hends, -⟩ := dispatched_once_per_opening hattach appends_awayAndBack
  have hreached : (begin (.withLog "a\n") (.atEnd 2)).ends Move.awayAndBack = [(0, 4), (1, 4)] := by
    decide +kernel
  have hfiles : (begin (.withLog "a\n") (.atEnd 2)).held ++
      (begin (.withLog "a\n") (.atEnd 2)).opened Move.awayAndBack = [2, 2] := by
    decide +kernel
  rw [hfiles, hreached] at hends
  rw [hfiles] at honce
  exact ⟨hends 0 2 4 rfl (by simp) ⟨"b", 4⟩ (by decide +kernel) le_rfl,
    hends 1 2 4 rfl (by simp) ⟨"b", 4⟩ (by decide +kernel) le_rfl, honce 2 4⟩

end World

end LogWatch
