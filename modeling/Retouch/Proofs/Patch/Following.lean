import Retouch.Proofs.Patch.Splices

/-!
# Where offsets are behind patches

`Patch.follow` adds up how much the patches that end before an offset lengthen the text, in whatever
order they are given. `Patch.applyAll` goes through the text with the patches in order. The two agree
about every byte:

* `shiftAt_eq_none_iff`: an offset leads nowhere exactly if a patch covers it.
* `exists_kept`: a character that no patch covers is kept. Before it stands what the patches that end
  before it make of the text before it.
* `follow_of_applyAll`: so `follow` leads every byte to where it is, and the end of the text to the end.
  No sum that it meets on the way is larger than one of the two texts.
-/

namespace Retouch

open Text

/-- A place of a text behind the beginning of a character is behind all of it. -/
theorem Text.add_utf8Size_le_of_isBoundary {before behind : Text} {c : Char} {n : Nat}
    (h : isBoundary (before ++ c :: behind) n = true) (hlt : byteLength before < n) :
    byteLength before + c.utf8Size ≤ n := by
  obtain ⟨left, right, hsource, rfl⟩ := isBoundary_iff.1 h
  obtain ⟨m, rfl, hm⟩ := exists_eq_append_of_byteLength_le hsource.symm (Nat.le_of_lt hlt)
  cases m with
  | nil => exact absurd hlt (by simp)
  | cons d m =>
    obtain ⟨rfl, -⟩ := List.cons.inj hm
    rw [byteLength_append, byteLength_cons]
    omega

/-- Each byte of a text is one of a character. -/
theorem Text.exists_char_of_lt {source : Text} {offset : Nat} (h : offset < byteLength source) :
    ∃ before c behind i, source = before ++ c :: behind ∧ offset = byteLength before + i ∧
      i < c.utf8Size := by
  induction source generalizing offset with
  | nil => exact absurd h (Nat.not_lt_zero _)
  | cons c source ih =>
    by_cases hfirst : offset < c.utf8Size
    · exact ⟨[], c, source, offset, rfl, by simp, hfirst⟩
    · rw [byteLength_cons] at h
      obtain ⟨before, d, behind, i, rfl, hoffset, hi⟩ := ih (show offset - c.utf8Size < _ by omega)
      exact ⟨c :: before, d, behind, i, rfl, by rw [byteLength_cons]; omega, hi⟩

namespace Patch

section Order

variable {patches : List Patch}

/-- Some of the patches are put in order as they are among all. -/
theorem inOrder_filter (keep : Patch → Bool) (patches : List Patch) :
    inOrder (patches.filter keep) = (inOrder patches).filter keep := by
  refine Reordered.eq_of_pairwise ⟨?_, fun start stop => ?_⟩
    (List.pairwise_mergeSort before_trans before_total _)
    ((List.pairwise_mergeSort before_trans before_total patches).filter keep)
  · exact (perm_inOrder _).trans ((perm_inOrder patches).symm.filter keep)
  · rw [filter_inOrder, List.filter_comm, ← filter_inOrder patches, List.filter_comm]

/-- **An offset leads nowhere** exactly if a patch covers it. -/
theorem shiftAt_eq_none_iff {offset : Nat} :
    shiftAt offset patches = none ↔ ∃ p ∈ patches, p.start ≤ offset ∧ offset < p.stop := by
  induction patches with
  | nil => simp [shiftAt]
  | cons p patches ih =>
    rw [shiftAt, List.exists_mem_cons_iff]
    split
    · next hcovered => exact ⟨fun _ => .inl hcovered.2, fun _ => rfl⟩
    · next hclear =>
      rw [Option.map_eq_none_iff, ih]
      exact ⟨.inr, fun h => h.resolve_left fun hcovered => hclear ⟨by omega, hcovered⟩⟩

theorem follow_eq_none_iff {offset : Nat} :
    follow patches offset = none ↔ ∃ p ∈ patches, p.start ≤ offset ∧ offset < p.stop := by
  rw [follow, Option.map_eq_none_iff, shiftAt_eq_none_iff]

end Order

section ApplyAll

variable {source output : Text} {patches : List Patch}

/-- Patches that can be applied have ranges of the text. -/
theorem fits_of_applyAll (h : applyAll source patches = .ok output) : ∀ p ∈ patches, p.Fits source :=
  fun p hp => (applyAll_ok_iff.1 h).1.fits p (mem_inOrder.2 hp)

/-! ## What is kept -/

/-- **A character that no patch covers is kept.** Before it stands what the patches that end before it
make of the text before it, and its bytes are led there. -/
theorem exists_kept (h : applyAll source patches = .ok output) {before behind : Text} {c : Char} {i : Nat}
    (hsource : source = before ++ c :: behind) (hi : i < c.utf8Size)
    (hclear : ∀ p ∈ patches, p.stop ≤ byteLength before + i ∨ byteLength before + i < p.start) :
    ∃ before' behind', output = before' ++ c :: behind' ∧
      applyAll before (patches.filter fun p => p.stop ≤ byteLength before + i) = .ok before' ∧
      ∃ shift, shiftAt (byteLength before + i) patches = some shift ∧
        (byteLength before : Int) + shift = byteLength before' := by
  subst hsource
  have hfits := fits_of_applyAll h
  -- Patches begin and end where characters do.
  have hside : ∀ p ∈ inOrder patches, p.stop ≤ byteLength before ∨ byteLength before + i < p.start := by
    intro p hp
    refine (hclear p (mem_inOrder.1 hp)).imp_left fun hstop => ?_
    by_contra hlt
    have := add_utf8Size_le_of_isBoundary (hfits p (mem_inOrder.1 hp)).boundary.2 (Nat.not_le.1 hlt)
    omega
  obtain ⟨lefts, rights, hinOrder, hlefts, hrights⟩ :=
    exists_sides (pairwise_before_inOrder patches) hside
  have hforward : ∀ p ∈ rights, p.start ≤ p.stop := fun p hp =>
    (hfits p (mem_inOrder.1 (hinOrder ▸ List.mem_append_right lefts hp))).forward
  have hbegin : ∀ p ∈ rights, byteLength before + c.utf8Size ≤ p.start := fun p hp => by
    have hfit := hfits p (mem_inOrder.1 (hinOrder ▸ List.mem_append_right lefts hp))
    exact add_utf8Size_le_of_isBoundary hfit.boundary.1 (by have := hrights p hp; omega)
  have hweaves := applyAll_eq_ok_iff.1 h
  rw [hinOrder] at hweaves
  obtain ⟨before', rest, hleft, hrest, rfl⟩ := hweaves.split
    (fun p hp => by have := hlefts p hp; omega) (fun p hp => by have := hbegin p hp; omega)
  obtain ⟨behind', -, rfl⟩ := hrest.exists_of_le_start (l := [c]) (r := behind)
    (fun p hp => by have := hbegin p hp; rw [byteLength_cons, byteLength_nil]; omega)
  refine ⟨before', behind', rfl, applyAll_eq_ok_iff.2 ?_, totalGrowth lefts, ?_,
    hleft.byteLength_eq.symm⟩
  · rw [inOrder_filter, hinOrder, List.filter_append,
      List.filter_eq_self.2 fun p hp => by have := hlefts p hp; simp; omega,
      List.filter_eq_nil_iff.2 fun p hp => by have := hbegin p hp; have := hforward p hp; simp; omega,
      List.append_nil]
    exact hleft
  · rw [← shiftAt_perm (perm_inOrder patches), hinOrder, shiftAt_append,
      shiftAt_of_stop_le fun p hp => Nat.le_add_right_of_le (hlefts p hp),
      shiftAt_eq_zero fun p hp => ⟨hrights p hp, hforward p hp⟩]
    simp

/-- A byte that no patch covers is somewhere. -/
theorem exists_image (h : applyAll source patches = .ok output) {x : Nat} (hlt : x < byteLength source)
    (hclear : ∀ p ∈ patches, p.stop ≤ x ∨ x < p.start) : ∃ now, image source patches x = some now := by
  obtain ⟨before, c, behind, i, hsource, rfl, hi⟩ := exists_char_of_lt hlt
  obtain ⟨before', -, -, -, shift, hshift, hlength⟩ := exists_kept h hsource hi hclear
  exact ⟨byteLength before' + i, (image_eq_some_iff h hlt).2 ⟨shift, hshift, by omega⟩⟩

/-- **The end of a text** is moved to the end. -/
theorem shiftAt_byteLength (h : applyAll source patches = .ok output) :
    ∃ shift, shiftAt (byteLength source) patches = some shift ∧
      (byteLength source : Int) + shift = byteLength output := by
  refine ⟨totalGrowth (inOrder patches), ?_, (applyAll_eq_ok_iff.1 h).byteLength_eq.symm⟩
  rw [← shiftAt_perm (perm_inOrder patches)]
  exact shiftAt_of_stop_le fun p hp => (fits_of_applyAll h p (mem_inOrder.1 hp)).stop_le

/-! ## Sums of shifts -/

/-- Some of the patches shift an offset by no more than the lengths of the texts. -/
theorem Weaves.shiftAt_le {cursor : Nat} {rest : Text} (h : Weaves cursor rest patches output)
    {chosen : List Patch} (hchosen : chosen.Sublist patches) {offset : Nat} {shift : Int}
    (hshift : shiftAt offset chosen = some shift) :
    -(byteLength rest : Int) ≤ shift ∧ shift ≤ byteLength output := by
  induction h generalizing chosen shift with
  | nil =>
    obtain rfl := List.sublist_nil.1 hchosen
    obtain rfl := Option.some.inj hshift
    omega
  | @cons cursor kept replaced behind woven p patches hstart hstop _ ih =>
    simp only [byteLength_append]
    cases hchosen with
    | cons _ hlater =>
      have hbounds := ih hlater hshift
      omega
    | cons_cons _ hlater =>
      rw [shiftAt] at hshift
      split at hshift
      · cases hshift
      · obtain ⟨later, hlaterShift, rfl⟩ := Option.map_eq_some_iff.1 hshift
        have hbounds := ih hlater hlaterShift
        simp only [growth]
        split <;> omega

/-- **No sum on the way is large**: whichever of the patches come first. -/
theorem shiftAt_le_of_applyAll (h : applyAll source patches = .ok output) {earlier later : List Patch}
    (hparts : patches = earlier ++ later) {offset : Nat} {shift : Int}
    (hshift : shiftAt offset earlier = some shift) :
    -(byteLength source : Int) ≤ shift ∧ shift ≤ byteLength output := by
  subst hparts
  obtain ⟨chosen, hperm, hchosen⟩ := List.exists_perm_sublist (List.sublist_append_left earlier later)
    (perm_inOrder (earlier ++ later)).symm
  rw [← shiftAt_perm hperm] at hshift
  exact (applyAll_eq_ok_iff.1 h).shiftAt_le hchosen hshift

/-! ## Following -/

/-- What is followed to a place in a text that has 64-bit offsets gets there. -/
theorem follow_of_shiftAt {offset now : Nat} {shift : Int} (hshift : shiftAt offset patches = some shift)
    (hnow : (offset : Int) + shift = now) (hfit : now < offsetLimit) :
    follow patches offset = some now := by
  rw [follow, hshift, Option.map_some, hnow]
  unfold offsetLimit at hfit ⊢
  exact congrArg some (by omega)

/-- Whether the byte of a text at `offset` is at `now` in what patches make of the text: in the same
character, before which stands what the patches that end before the byte make of the text before it. -/
def Carries (source output : Text) (patches : List Patch) (offset now : Nat) : Prop :=
  ∃ before c behind before' behind' i, source = before ++ c :: behind ∧ output = before' ++ c :: behind' ∧
    i < c.utf8Size ∧ offset = byteLength before + i ∧ now = byteLength before' + i ∧
    applyAll before (patches.filter fun p => p.stop ≤ offset) = .ok before'

/-- A byte that is carried is there, and is the same. -/
theorem Carries.getElem? {offset now : Nat} (h : Carries source output patches offset now) :
    now < byteLength output ∧ (bytes output)[now]? = (bytes source)[offset]? := by
  obtain ⟨before, c, behind, before', behind', i, rfl, rfl, hi, rfl, rfl, -⟩ := h
  have hat : ∀ s t : Text, (bytes (s ++ c :: t))[byteLength s + i]? = (bytes [c])[i]? := fun s t => by
    have hin : i < (bytes [c]).length := by simpa using hi
    rw [bytes_append, List.getElem?_append_right (by simp), length_bytes, Nat.add_sub_cancel_left,
      ← List.singleton_append, bytes_append, List.getElem?_append_left hin]
  refine ⟨?_, by rw [hat, hat]⟩
  simp only [byteLength_append, byteLength_cons]
  omega

/-- **A byte is followed to where it is.** -/
theorem carries_of_follow (h : applyAll source patches = .ok output) (hfit : byteLength output < offsetLimit)
    {offset now : Nat} (hlt : offset < byteLength source) (hnow : follow patches offset = some now) :
    Carries source output patches offset now := by
  have hclear : ∀ p ∈ patches, p.stop ≤ offset ∨ offset < p.start := by
    intro p hp
    by_contra hcovered
    have hnone : follow patches offset = none := follow_eq_none_iff.2 ⟨p, hp, by omega⟩
    rw [hnow] at hnone
    cases hnone
  obtain ⟨before, c, behind, i, hsource, rfl, hi⟩ := exists_char_of_lt hlt
  obtain ⟨before', behind', rfl, hbefore, shift, hshift, hlength⟩ := exists_kept h hsource hi hclear
  refine ⟨before, c, behind, before', behind', i, hsource, rfl, hi, rfl, ?_, hbefore⟩
  simp only [byteLength_append, byteLength_cons] at hfit
  have hthere : follow patches (byteLength before + i) = some (byteLength before' + i) :=
    follow_of_shiftAt hshift (by omega) (by omega)
  exact Option.some.inj (hnow.symm.trans hthere)

/-- The end of a text is followed to the end. -/
theorem follow_byteLength (h : applyAll source patches = .ok output)
    (hfit : byteLength output < offsetLimit) :
    follow patches (byteLength source) = some (byteLength output) := by
  obtain ⟨shift, hshift, hlength⟩ := shiftAt_byteLength h
  exact follow_of_shiftAt hshift hlength hfit

/-- **Offsets that are followed keep their order**, the end of the text included. -/
theorem follow_lt (h : applyAll source patches = .ok output) (hfit : byteLength output < offsetLimit)
    {x y x' y' : Nat} (hx : follow patches x = some x') (hy : follow patches y = some y') (hlt : x < y)
    (hle : y ≤ byteLength source) : x' < y' := by
  have hxin : x < byteLength source := Nat.lt_of_lt_of_le hlt hle
  rcases Nat.lt_or_eq_of_le hle with hyin | rfl
  · rw [follow_eq_image h hxin (Nat.le_of_lt hfit)] at hx
    rw [follow_eq_image h hyin (Nat.le_of_lt hfit)] at hy
    exact image_lt h hx hy hlt
  · rw [follow_byteLength h hfit] at hy
    obtain rfl := Option.some.inj hy
    exact (carries_of_follow h hfit hxin hx).getElem?.1

theorem follow_lt_iff (h : applyAll source patches = .ok output) (hfit : byteLength output < offsetLimit)
    {x y x' y' : Nat} (hx : follow patches x = some x') (hy : follow patches y = some y')
    (hxle : x ≤ byteLength source) (hyle : y ≤ byteLength source) : x < y ↔ x' < y' := by
  refine ⟨fun hlt => follow_lt h hfit hx hy hlt hyle, fun hlt => ?_⟩
  by_contra hge
  rcases Nat.lt_or_eq_of_le (Nat.not_lt.1 hge) with hmore | rfl
  · exact absurd (follow_lt h hfit hy hx hmore hxle) (Nat.lt_asymm hlt)
  · obtain rfl := Option.some.inj (hx.symm.trans hy)
    exact absurd hlt (Nat.lt_irrefl _)

/-- **Offsets are followed through patches.** Let patches, given in any order, make a text with 64-bit
offsets of another one. An offset of that leads nowhere exactly if it is in the range of a patch.
Otherwise it leads to the same byte in the new text, before which stands exactly what the patches that
end before it make of the text before it. Bytes keep their order, and the end is followed to the end.
No sum of shifts on the way goes beyond the lengths of the texts. -/
theorem follow_of_applyAll (h : applyAll source patches = .ok output)
    (hfit : byteLength output < offsetLimit) :
    (∀ offset < byteLength source,
      (follow patches offset = none ↔ ∃ p ∈ patches, p.start ≤ offset ∧ offset < p.stop) ∧
      ∀ now, follow patches offset = some now → Carries source output patches offset now ∧
        now < byteLength output ∧ (bytes output)[now]? = (bytes source)[offset]?) ∧
    (∀ x y x' y', follow patches x = some x' → follow patches y = some y' → x < y →
      y ≤ byteLength source → x' < y') ∧
    follow patches (byteLength source) = some (byteLength output) ∧
    ∀ offset earlier later shift, patches = earlier ++ later → shiftAt offset earlier = some shift →
      -(byteLength source : Int) ≤ shift ∧ shift ≤ byteLength output := by
  refine ⟨fun offset hlt => ⟨follow_eq_none_iff, fun now hnow => ?_⟩,
    fun x y x' y' hx hy hlt hle => follow_lt h hfit hx hy hlt hle, follow_byteLength h hfit,
    fun offset earlier later shift hparts hshift => shiftAt_le_of_applyAll h hparts hshift⟩
  have hcarries := carries_of_follow h hfit hlt hnow
  exact ⟨hcarries, hcarries.getElem?⟩

/-- A character is removed, two are inserted behind the next one, and the last one is replaced; the
patches are given from the last to the first. -/
theorem follow_of_applyAll_backwards :
    let patches : List Patch := [⟨5, 6, ['q']⟩, insertion 4 ['x', 'y'], ⟨1, 3, []⟩]
    applyAll ['a', 'é', 'b', 'c', 'd'] patches = .ok ['a', 'b', 'x', 'y', 'c', 'q'] ∧
      follow patches 2 = none ∧ follow patches 4 = some 4 ∧ follow patches 6 = some 6 ∧
      Carries ['a', 'é', 'b', 'c', 'd'] ['a', 'b', 'x', 'y', 'c', 'q'] patches 4 4 := by
  intro patches
  have hsorted : inOrder patches = [⟨1, 3, []⟩, insertion 4 ['x', 'y'], ⟨5, 6, ['q']⟩] :=
    inOrder_eq_of_pairwise (by unfold Precedes; decide) (by decide)
  have happly : applyAll ['a', 'é', 'b', 'c', 'd'] patches = .ok ['a', 'b', 'x', 'y', 'c', 'q'] := by
    rw [applyAll, hsorted]
    decide
  obtain ⟨hfollow, -, hend, -⟩ := follow_of_applyAll happly (by decide)
  refine ⟨happly, (hfollow 2 (by decide)).1.2 ⟨⟨1, 3, []⟩, by decide⟩, by decide, hend, ?_⟩
  exact ((hfollow 4 (by decide)).2 4 (by decide)).1

end ApplyAll

end Patch

end Retouch
