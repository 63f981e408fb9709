import Retouch.Proofs.Patch.Following

/-!
# Patches in two turns

Patches can be made in two turns: some of them first, and then the others in the new text, with their
ends followed through the first ones. If the patches of the two turns keep a distance from each other
(`Patch.Distant`), all the ends can be followed, and it makes no difference which turn comes first, or
whether all patches are made at once: `exists_applyAll_turns`.

The patches are compared in order. `Weaves.exists_turns` goes through them once and sorts out, at each
patch, to which turn it belongs; `Displaced` says where a patch of the second turn stands by then.
-/

namespace Retouch

open Text

namespace Patch

/-- Whether a byte at least stands between two patches. -/
def Distant (p q : Patch) : Prop := p.stop < q.start ∨ q.stop < p.start

theorem Distant.symm {p q : Patch} (h : p.Distant q) : q.Distant p := Or.symm h

/-- A patch of a text in what other patches make of that, if its ends can be followed there. -/
def behind (patches : List Patch) (p : Patch) : Option Patch :=
  (follow patches p.start).bind fun start => (follow patches p.stop).map fun stop => ⟨start, stop, p.text⟩

/-- Whether `q` is the patch `p` in what the patches `first` make of a part of a text that has by then
been moved by `base`. -/
structure Displaced (base : Int) (first : List Patch) (p q : Patch) : Prop where
  exists_shift : ∃ shift, shiftAt p.start first = some shift ∧ shiftAt p.stop first = some shift ∧
    (p.start : Int) + (base + shift) = q.start ∧ (p.stop : Int) + (base + shift) = q.stop
  text : q.text = p.text

section Turns

variable {cursor place : Nat} {source rest left right output : Text}
  {patches others first : List Patch} {p q : Patch}

/-- A patch of the first turn moves all that stands behind it. -/
theorem Displaced.behind_patch {base : Int} {r : Patch} (h : Displaced (base + r.growth) first p q)
    (hstart : r.stop ≤ p.start) (hstop : r.stop ≤ p.stop) : Displaced base (r :: first) p q := by
  obtain ⟨⟨shift, hbegin, hend, hfrom, hto⟩, htext⟩ := h
  have hmore : ∀ offset, r.stop ≤ offset → shiftAt offset first = some shift →
      shiftAt offset (r :: first) = some (r.growth + shift) := by
    intro offset hle hshift
    rw [shiftAt, if_neg (by omega), hshift, Option.map_some, if_pos hle]
  exact ⟨⟨_, hmore _ hstart hbegin, hmore _ hstop hend, by omega, by omega⟩, htext⟩

/-- A patch that stands before all of the first turn is moved only along with the part. -/
theorem Displaced.of_lt {base : Int} (hforward : p.start ≤ p.stop)
    (hfirst : ∀ r ∈ first, p.stop < r.start ∧ r.start ≤ r.stop) (hstart : (p.start : Int) + base = q.start)
    (hstop : (p.stop : Int) + base = q.stop) (htext : q.text = p.text) : Displaced base first p q := by
  refine ⟨⟨0, shiftAt_eq_zero fun r hr => ?_, shiftAt_eq_zero hfirst, by omega, by omega⟩, htext⟩
  have := hfirst r hr
  omega

/-- Patches that are woven in are ranges, each of which begins where the one before it ends or behind
that. -/
theorem Weaves.pairwise (h : Weaves cursor rest patches output) :
    (∀ p ∈ patches, p.start ≤ p.stop) ∧ patches.Pairwise fun p q => p.stop ≤ q.start := by
  induction h with
  | nil => exact ⟨by simp, .nil⟩
  | cons hstart hstop hlater ih =>
    refine ⟨List.forall_mem_cons.2 ⟨by omega, ih.1⟩, List.pairwise_cons.2 ⟨hlater.le_start, ih.2⟩⟩

/-- Patches that are woven in end in the part of the text. -/
theorem Weaves.stop_le (h : Weaves cursor rest patches output) :
    ∀ p ∈ patches, p.stop ≤ cursor + byteLength rest := by
  induction h with
  | nil => simp
  | cons hstart hstop hlater ih =>
    simp only [byteLength_append] at ih ⊢
    refine List.forall_mem_cons.2 ⟨by omega, fun q hq => ?_⟩
    have := ih q hq
    omega

/-- What patches in order make of a part of a text is one text only. -/
theorem Weaves.output_eq {output' : Text} (h : Weaves cursor rest patches output)
    (h' : Weaves cursor rest patches output') : output = output' := by
  induction h generalizing output' with
  | nil =>
    cases h'
    rfl
  | @cons cursor kept replaced behind woven p patches hstart hstop hlater ih =>
    generalize hcut : kept ++ (replaced ++ behind) = rest at h'
    cases h' with
    | cons hstart' hstop' hlater' =>
      obtain ⟨rfl, hrest⟩ := append_inj_of_byteLength_eq hcut (by omega)
      obtain ⟨rfl, rfl⟩ := append_inj_of_byteLength_eq hrest (by omega)
      rw [ih hlater']

/-- **Weaving in two turns.** What patches in order make of a part of a text is also made by those with
`early` alone and then by the others, which stand elsewhere by then. -/
theorem Weaves.exists_turns (early : Patch → Bool) (h : Weaves cursor rest patches output)
    (hdistant : patches.Pairwise fun p q => early p ≠ early q → p.stop < q.start) {base : Int}
    (hplace : (cursor : Int) + base = place) :
    ∃ middle moved, Weaves cursor rest (patches.filter early) middle ∧ Weaves place middle moved output ∧
      List.Forall₂ (Displaced base (patches.filter early)) (patches.filter fun p => !early p) moved := by
  induction h generalizing place base with
  | nil cursor rest => exact ⟨rest, [], .nil _ _, .nil _ _, .nil⟩
  | @cons cursor kept replaced behind woven p patches hstart hstop hlater ih =>
    obtain ⟨hfirst, hrest⟩ := List.pairwise_cons.1 hdistant
    have hbehind := hlater.le_start
    have hforward := hlater.pairwise.1
    cases hearly : early p with
    | true =>
      -- The patch is made now, and what stands behind it is moved by its growth.
      have hthere : (p.stop : Int) + (base + p.growth) =
          (place + byteLength kept + byteLength p.text : Nat) := by
        rw [growth]
        omega
      obtain ⟨middle, moved, hnow, hthen, hmoved⟩ := ih hrest hthere
      rw [List.filter_cons_of_pos hearly, List.filter_cons_of_neg (by simp [hearly])]
      refine ⟨kept ++ p.text ++ middle, moved, .cons hstart hstop hnow, ?_, ?_⟩
      · refine Weaves.prepend (l := kept ++ p.text) ?_
        rwa [byteLength_append, ← Nat.add_assoc]
      · have hlate : ∀ q ∈ patches.filter fun p => !early p, p.stop ≤ q.start ∧ p.stop ≤ q.stop :=
          fun q hq => by
            have hq := (List.mem_filter.1 hq).1
            exact ⟨hbehind q hq, Nat.le_trans (hbehind q hq) (hforward q hq)⟩
        exact ((List.forall₂_and_left _ _).2 ⟨hlate, hmoved⟩).imp fun q q' hq =>
          hq.2.behind_patch hq.1.1 hq.1.2
    | false =>
      -- The patch is left for the second turn, in which it stands at `place`.
      have hthere : (p.stop : Int) + base =
          (place + byteLength kept + byteLength replaced : Nat) := by omega
      obtain ⟨middle, moved, hnow, hthen, hmoved⟩ := ih hrest hthere
      rw [List.filter_cons_of_neg (by simp [hearly]), List.filter_cons_of_pos (by simp [hearly])]
      refine ⟨kept ++ (replaced ++ middle),
        ⟨place + byteLength kept, place + byteLength kept + byteLength replaced, p.text⟩ :: moved,
        ?_, .cons rfl rfl hthen, .cons ?_ hmoved⟩
      · rw [← List.append_assoc, ← List.append_assoc]
        refine Weaves.prepend ?_
        rwa [byteLength_append, ← Nat.add_assoc, hstart, hstop]
      · refine .of_lt (by omega) (fun r hr => ?_) (by dsimp only; omega) (by dsimp only; omega) rfl
        obtain ⟨hr, hlate⟩ := List.mem_filter.1 hr
        exact ⟨hfirst r hr (by rw [hearly, hlate]; decide), hforward r hr⟩

/-! ## Both turns at once -/

/-- A patch is not at a distance from itself. -/
theorem notMem_of_distant (hfits : ∀ p ∈ patches, p.Fits source)
    (hdistant : ∀ p ∈ patches, ∀ q ∈ others, p.Distant q) : ∀ q ∈ others, q ∉ patches := by
  intro q hq hmem
  have := (hfits q hmem).forward
  rcases hdistant q hmem q hq with hlt | hlt <;> omega

/-- The patches of the two turns, each as they are among all. -/
theorem filter_inOrder_append (hfits : ∀ p ∈ patches, p.Fits source)
    (hdistant : ∀ p ∈ patches, ∀ q ∈ others, p.Distant q) :
    (inOrder (patches ++ others)).filter (fun p => decide (p ∈ patches)) = inOrder patches ∧
      (inOrder (patches ++ others)).filter (fun p => !decide (p ∈ patches)) = inOrder others := by
  have hothers := notMem_of_distant hfits hdistant
  rw [← inOrder_filter, ← inOrder_filter, List.filter_append, List.filter_append]
  constructor
  · rw [List.filter_eq_self.2 (by simp), List.filter_eq_nil_iff.2 (by simpa using hothers),
      List.append_nil]
  · rw [List.filter_eq_nil_iff.2 (by simp), List.filter_eq_self.2 (by simpa using hothers),
      List.nil_append]

/-- Patches of the two turns keep their distance also in order, and none of them begins before the one
before it ends. -/
theorem pairwise_inOrder_append (hpatches : applyAll source patches = .ok left)
    (hothers : applyAll source others = .ok right)
    (hdistant : ∀ p ∈ patches, ∀ q ∈ others, p.Distant q) :
    (inOrder (patches ++ others)).Pairwise fun p q => p.stop ≤ q.start ∧
      (decide (p ∈ patches) ≠ decide (q ∈ patches) → p.stop < q.start) := by
  have hfits : ∀ p ∈ patches ++ others, p.Fits source := fun p hp =>
    (List.mem_append.1 hp).elim (fits_of_applyAll hpatches p) (fits_of_applyAll hothers p)
  obtain ⟨hearly, hlate⟩ := filter_inOrder_append (fits_of_applyAll hpatches) hdistant
  have hfirst := (applyAll_eq_ok_iff.1 hpatches).pairwise.2
  have hsecond := (applyAll_eq_ok_iff.1 hothers).pairwise.2
  rw [← hearly, List.pairwise_filter] at hfirst
  rw [← hlate, List.pairwise_filter] at hsecond
  refine ((pairwise_before_inOrder _).and (hfirst.and hsecond)).imp_of_mem ?_
  rintro p q hp hq ⟨hle, hfirst, hsecond⟩
  have hp := mem_inOrder.1 hp
  have hq := mem_inOrder.1 hq
  have hlt : p.Distant q → p.stop < q.start := fun hfar => by
    have := (hfits q hq).forward
    rcases hfar with hlt | hlt <;> omega
  by_cases hpin : p ∈ patches <;> by_cases hqin : q ∈ patches
  · exact ⟨hfirst (by simpa using hpin) (by simpa using hqin), fun hne => absurd (by simp [*]) hne⟩
  · have hfar := hlt (hdistant p hpin q ((List.mem_append.1 hq).resolve_left hqin))
    exact ⟨Nat.le_of_lt hfar, fun _ => hfar⟩
  · have hfar := hlt (hdistant q hqin p ((List.mem_append.1 hp).resolve_left hpin)).symm
    exact ⟨Nat.le_of_lt hfar, fun _ => hfar⟩
  · exact ⟨hsecond (by simpa using hpin) (by simpa using hqin), fun hne => absurd (by simp [*]) hne⟩

/-- The order in which the two turns are given makes no difference. -/
theorem reordered_append (hfits : ∀ p ∈ patches, p.Fits source)
    (hdistant : ∀ p ∈ patches, ∀ q ∈ others, p.Distant q) :
    Reordered (patches ++ others) (others ++ patches) := by
  refine ⟨List.perm_append_comm, fun start stop => ?_⟩
  rw [List.filter_append, List.filter_append]
  by_cases hsome : ∃ p ∈ patches, p.hasRange start stop = true
  · -- No patch at a distance has the same range.
    obtain ⟨p, hp, hrange⟩ := hsome
    obtain ⟨rfl, rfl⟩ := hasRange_iff.1 hrange
    have hnone : others.filter (hasRange p.start p.stop) = [] := by
      refine List.filter_eq_nil_iff.2 fun q hq hsame => ?_
      obtain ⟨hstart, hstop⟩ := hasRange_iff.1 hsame
      have := (hfits p hp).forward
      rcases hdistant p hp q hq with hlt | hlt <;> omega
    rw [hnone, List.append_nil, List.nil_append]
  · have hnone : patches.filter (hasRange start stop) = [] :=
      List.filter_eq_nil_iff.2 fun p hp hrange => hsome ⟨p, hp, hrange⟩
    rw [hnone, List.append_nil, List.nil_append]

/-! ## The second turn -/

/-- A displaced patch is the patch with its ends followed, if the text has 64-bit offsets. -/
theorem Displaced.behind_eq (h : Displaced 0 (inOrder first) p q) (hstart : q.start < offsetLimit)
    (hstop : q.stop < offsetLimit) : p.behind first = some q := by
  obtain ⟨⟨shift, hbegin, hend, hfrom, hto⟩, htext⟩ := h
  rw [shiftAt_perm (perm_inOrder first)] at hbegin hend
  rw [behind, follow_of_shiftAt hbegin (by omega) hstart, follow_of_shiftAt hend (by omega) hstop]
  obtain ⟨start, stop, text⟩ := q
  obtain rfl : text = p.text := htext
  rfl

/-- The ends of a patch that is followed are followed. -/
theorem ends_of_behind (h : p.behind patches = some q) :
    follow patches p.start = some q.start ∧ follow patches p.stop = some q.stop := by
  obtain ⟨start, hstart, hrest⟩ := Option.bind_eq_some_iff.1 h
  obtain ⟨stop, hstop, rfl⟩ := Option.map_eq_some_iff.1 hrest
  exact ⟨hstart, hstop⟩

/-- Patches that are followed keep their order. -/
theorem before_behind (h : applyAll source patches = .ok output) (hfit : byteLength output < offsetLimit)
    {p' q' : Patch} (hp : p.Fits source) (hq : q.Fits source) (hp' : p.behind patches = some p')
    (hq' : q.behind patches = some q') : p.before q = p'.before q' := by
  obtain ⟨hpstart, hpstop⟩ := ends_of_behind hp'
  obtain ⟨hqstart, hqstop⟩ := ends_of_behind hq'
  have hpin := Nat.le_trans hp.forward hp.stop_le
  have hqin := Nat.le_trans hq.forward hq.stop_le
  have hstarts := follow_lt_iff h hfit hpstart hqstart hpin hqin
  have hstarts' := follow_lt_iff h hfit hqstart hpstart hqin hpin
  have hstops := follow_lt_iff h hfit hqstop hpstop hq.stop_le hp.stop_le
  refine Bool.eq_iff_iff.2 ?_
  simp only [before, Bool.or_eq_true, decide_eq_true_eq, Bool.and_eq_true, beq_iff_eq]
  omega

/-- **The second turn.** Patches at a distance from others that were made before them can be followed, and
make of the new text what all of them together make of the old one. -/
theorem exists_forall₂_behind (hpatches : applyAll source patches = .ok left)
    (hothers : applyAll source others = .ok right)
    (hdistant : ∀ p ∈ patches, ∀ q ∈ others, p.Distant q) (hfit : byteLength left < offsetLimit) :
    ∃ moved output, List.Forall₂ (fun q q' => q.behind patches = some q') others moved ∧
      applyAll left moved = .ok output ∧ applyAll source (patches ++ others) = .ok output := by
  have horder := pairwise_inOrder_append hpatches hothers hdistant
  have hfits : ∀ p ∈ patches ++ others, p.Fits source := fun p hp =>
    (List.mem_append.1 hp).elim (fits_of_applyAll hpatches p) (fits_of_applyAll hothers p)
  obtain ⟨output, houtput⟩ : ∃ output, Weaves 0 source (inOrder (patches ++ others)) output :=
    Weaves.exists_of_pairwise [] rfl rfl (horder.imp And.left)
      (fun p hp => ⟨Nat.zero_le _, (hfits p (mem_inOrder.1 hp)).forward⟩)
      (fun p hp => (hfits p (mem_inOrder.1 hp)).boundary)
  obtain ⟨middle, moved, hfirst, hsecond, hmoved⟩ :=
    houtput.exists_turns (fun p => decide (p ∈ patches)) (horder.imp And.right) (Int.add_zero _)
  obtain ⟨hearly, hlate⟩ := filter_inOrder_append (fits_of_applyAll hpatches) hdistant
  rw [hearly] at hfirst
  rw [hearly, hlate] at hmoved
  obtain rfl := hfirst.output_eq (applyAll_eq_ok_iff.1 hpatches)
  -- In order, the patches of the second turn stand where they are followed to.
  have hstops := hsecond.stop_le
  have hforward := hsecond.pairwise.1
  have hbehind : List.Forall₂ (fun q q' => q.behind patches = some q') (inOrder others) moved := by
    have hends : ∀ q' ∈ moved, q'.start < offsetLimit ∧ q'.stop < offsetLimit := fun q' hq' => by
      have := hstops q' hq'
      have := hforward q' hq'
      omega
    exact ((List.forall₂_and_left _ _).2 ⟨hends, hmoved.flip⟩).flip.imp fun q q' hq' =>
      hq'.2.behind_eq hq'.1.1 hq'.1.2
  -- So they do as they are given.
  let follows : Patch → Patch := fun q => (q.behind patches).getD q
  obtain rfl : (inOrder others).map follows = moved := by
    rw [← List.forall₂_eq_eq_eq, List.forall₂_map_left_iff]
    exact hbehind.imp fun q q' hq' => by simp [follows, hq']
  rw [List.forall₂_map_right_iff, List.forall₂_same] at hbehind
  have hfollows : ∀ q ∈ others, q.behind patches = some (follows q) := fun q hq =>
    hbehind q (mem_inOrder.2 hq)
  refine ⟨others.map follows, output, ?_, ?_, applyAll_eq_ok_iff.2 houtput⟩
  · exact List.forall₂_map_right_iff.2 (List.forall₂_same.2 hfollows)
  · have hsorted : inOrder (others.map follows) = (inOrder others).map follows := by
      refine (List.map_mergeSort fun p hp q hq => ?_).symm
      exact before_behind hpatches hfit (hfits p (List.mem_append_right _ hp))
        (hfits q (List.mem_append_right _ hq)) (hfollows p hp) (hfollows q hq)
    rw [applyAll_eq_ok_iff, hsorted]
    exact hsecond

/-- **Patches at a distance can be made in two turns.** Let two lists of patches make a text each of one
source, and let the patches of the one keep a distance from those of the other. Then the ends of all of
them can be followed through the patches of the other list, and the source becomes one text, whether the
patches of the one list are made first, those of the other list, or all at once. -/
theorem exists_applyAll_turns (hpatches : applyAll source patches = .ok left)
    (hothers : applyAll source others = .ok right)
    (hdistant : ∀ p ∈ patches, ∀ q ∈ others, p.Distant q) (hleft : byteLength left < offsetLimit)
    (hright : byteLength right < offsetLimit) :
    ∃ others' patches' output,
      List.Forall₂ (fun q q' => q.behind patches = some q') others others' ∧
      List.Forall₂ (fun p p' => p.behind others = some p') patches patches' ∧
      applyAll left others' = .ok output ∧ applyAll right patches' = .ok output ∧
      applyAll source (patches ++ others) = .ok output ∧
      applyAll source (others ++ patches) = .ok output := by
  obtain ⟨others', output, hbehind, hsecond, htogether⟩ :=
    exists_forall₂_behind hpatches hothers hdistant hleft
  obtain ⟨patches', output', hbehind', hsecond', htogether'⟩ :=
    exists_forall₂_behind hothers hpatches (fun q hq p hp => (hdistant p hp q hq).symm) hright
  have horder : inOrder (patches ++ others) = inOrder (others ++ patches) :=
    inOrder_eq_of_reordered (reordered_append (fits_of_applyAll hpatches) hdistant)
  have hsame : applyAll source (others ++ patches) = .ok output := by
    rw [applyAll, ← horder]
    exact htogether
  obtain rfl := Except.ok.inj (htogether'.symm.trans hsame)
  exact ⟨others', patches', output', hbehind, hbehind', hsecond, hsecond', htogether, hsame⟩

/-- Of six letters, the second and the last one are replaced in one turn; in the other one the fourth is
removed, and a digit is put in front of all. -/
theorem exists_applyAll_turns_of_letters :
    let patches : List Patch := [⟨5, 6, ['F']⟩, ⟨1, 2, ['B', 'é']⟩]
    let others : List Patch := [insertion 0 ['1'], ⟨3, 4, []⟩]
    let source := ['a', 'b', 'c', 'd', 'e', 'f']
    applyAll source patches = .ok ['a', 'B', 'é', 'c', 'd', 'e', 'F'] ∧
      applyAll source others = .ok ['1', 'a', 'b', 'c', 'e', 'f'] ∧
      ∃ others' patches' output,
        List.Forall₂ (fun q q' => q.behind patches = some q') others others' ∧
        List.Forall₂ (fun p p' => p.behind others = some p') patches patches' ∧
        applyAll ['a', 'B', 'é', 'c', 'd', 'e', 'F'] others' = .ok output ∧
        applyAll ['1', 'a', 'b', 'c', 'e', 'f'] patches' = .ok output ∧
        applyAll source (patches ++ others) = .ok output ∧
        applyAll source (others ++ patches) = .ok output := by
  intro patches others source
  have hpatches : applyAll source patches = .ok ['a', 'B', 'é', 'c', 'd', 'e', 'F'] := by
    have hsorted : inOrder patches = [⟨1, 2, ['B', 'é']⟩, ⟨5, 6, ['F']⟩] :=
      inOrder_eq_of_pairwise (by unfold Precedes; decide) (by decide)
    rw [applyAll, hsorted]
    decide
  have hothers : applyAll source others = .ok ['1', 'a', 'b', 'c', 'e', 'f'] := by
    have hsorted : inOrder others = [insertion 0 ['1'], ⟨3, 4, []⟩] :=
      inOrder_eq_of_pairwise (by unfold Precedes; decide) (by decide)
    rw [applyAll, hsorted]
    decide
  exact ⟨hpatches, hothers,
    exists_applyAll_turns hpatches hothers (by unfold Distant; decide) (by decide) (by decide)⟩

end Turns

end Patch

end Retouch
