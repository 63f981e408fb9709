import Retouch.Proofs.Patch.Weaves

/-!
# Patches that stand apart

Of two patches that stand apart one ends before the other begins (`Patch.Apart`). The order in which
such patches are given does not matter (`inOrder_eq_of_perm`), and if they stand at places of a text
they can be applied to it (`exists_applyAll`).

Patches that stand on both sides of a part of a text keep that part (`exists_around`). Patches of the
part can then be applied afterwards, moved to where the part is by then, and make of the new text
what all the patches together make of the old one (`applyAll_moved`, `Around.applyAll_append`). A byte
outside the part is carried to one place either way (`Around.image_append`).
-/

namespace Retouch

open Text

namespace Patch

/-! ## The order of patches -/

/-- Whether a patch ends before another one begins, or where it begins, and begins before it. -/
def Precedes (p q : Patch) : Prop := p.stop ≤ q.start ∧ p.start < q.start

/-- Whether one of two patches precedes the other. -/
def Apart (p q : Patch) : Prop := p.Precedes q ∨ q.Precedes p

theorem Apart.symm {p q : Patch} (h : p.Apart q) : q.Apart p := Or.symm h

theorem before_total (p q : Patch) : (p.before q || q.before p) = true := by
  simp only [before, Bool.or_eq_true, decide_eq_true_eq, Bool.and_eq_true, beq_iff_eq]
  omega

theorem before_trans (p q r : Patch) (hpq : p.before q = true) (hqr : q.before r = true) :
    p.before r = true := by
  simp only [before, Bool.or_eq_true, decide_eq_true_eq, Bool.and_eq_true, beq_iff_eq] at *
  omega

theorem start_le_of_before {p q : Patch} (h : p.before q = true) : p.start ≤ q.start := by
  simp only [before, Bool.or_eq_true, decide_eq_true_eq, Bool.and_eq_true, beq_iff_eq] at h
  omega

section Order

variable {patches others : List Patch}

/-- Patches in order each begin where the one before them begins or behind that. -/
theorem pairwise_before_inOrder (patches : List Patch) :
    (inOrder patches).Pairwise fun p q => p.start ≤ q.start :=
  (List.pairwise_mergeSort before_trans before_total patches).imp start_le_of_before

theorem perm_inOrder (patches : List Patch) : (inOrder patches).Perm patches :=
  List.mergeSort_perm patches before

theorem mem_inOrder {p : Patch} : p ∈ inOrder patches ↔ p ∈ patches := (perm_inOrder patches).mem_iff

/-- Patches that stand apart are put one behind the other. -/
theorem pairwise_inOrder (h : patches.Pairwise Apart) : (inOrder patches).Pairwise Precedes := by
  have hapart : (inOrder patches).Pairwise Apart := (perm_inOrder patches).symm.pairwise h Apart.symm
  refine (hapart.and (pairwise_before_inOrder patches)).imp ?_
  rintro p q ⟨hforward | hback, hle⟩
  · exact hforward
  · exact absurd hback.2 (Nat.not_lt.2 hle)

/-- There is only one way to put patches one behind the other. -/
theorem inOrder_eq_of_pairwise (h : others.Pairwise Precedes) (hperm : patches.Perm others) :
    inOrder patches = others := by
  have hapart : patches.Pairwise Apart := hperm.symm.pairwise (h.imp Or.inl) Apart.symm
  refine List.Perm.eq_of_pairwise ?_ (pairwise_inOrder hapart) h ((perm_inOrder patches).trans hperm)
  rintro p q - - hpq hqp
  have := hpq.2
  have := hqp.2
  omega

/-- **The order in which patches are given does not matter** if they stand apart. -/
theorem inOrder_eq_of_perm (h : patches.Pairwise Apart) (hperm : patches.Perm others) :
    inOrder patches = inOrder others := by
  refine inOrder_eq_of_pairwise (pairwise_inOrder ?_) (hperm.trans (perm_inOrder others).symm)
  exact hperm.pairwise h Apart.symm

theorem applyAll_eq_of_perm (h : patches.Pairwise Apart) (hperm : patches.Perm others) (source : Text) :
    applyAll source patches = applyAll source others := by
  rw [applyAll, applyAll, inOrder_eq_of_perm h hperm]

/-- Patches keep their order where they are moved. -/
theorem inOrder_map_moved (n : Nat) (patches : List Patch) :
    inOrder (patches.map (moved n)) = (inOrder patches).map (moved n) := by
  refine (List.map_mergeSort ?_).symm
  intro p _ q _
  simp only [before, moved, Nat.add_lt_add_iff_left, Nat.add_le_add_iff_left]
  congr 2
  exact Bool.eq_iff_iff.2 (by simp)

/-- **Patches that stand apart at places of a text can be applied to it.** -/
theorem exists_applyAll {source : Text} (h : patches.Pairwise Apart)
    (hwithin : ∀ p ∈ patches, p.start ≤ p.stop)
    (hboundary : ∀ p ∈ patches, isBoundary source p.start = true ∧ isBoundary source p.stop = true) :
    ∃ output, applyAll source patches = .ok output := by
  have hweaves : ∃ output, Weaves 0 source (inOrder patches) output :=
    Weaves.exists_of_pairwise [] rfl rfl ((pairwise_inOrder h).imp And.left)
      (fun p hp => ⟨Nat.zero_le _, hwithin p (mem_inOrder.1 hp)⟩)
      (fun p hp => hboundary p (mem_inOrder.1 hp))
  obtain ⟨output, houtput⟩ := hweaves
  exact ⟨output, applyAll_eq_ok_iff.2 houtput⟩

end Order

/-! ## Where bytes are carried -/

/-- A patch that ends before an offset moves it. -/
theorem shiftAt_of_stop_le {offset : Nat} {patches : List Patch}
    (h : ∀ p ∈ patches, p.stop ≤ offset) : shiftAt offset patches = some (totalGrowth patches) := by
  induction patches with
  | nil => rfl
  | cons p patches ih =>
    have hp := h p List.mem_cons_self
    rw [shiftAt, if_neg (by omega), ih fun q hq => h q (List.mem_cons_of_mem p hq), Option.map_some,
      if_pos hp, totalGrowth]

/-- The shifts of two lists of patches add up. -/
theorem shiftAt_append (offset : Nat) (patches others : List Patch) :
    shiftAt offset (patches ++ others)
      = (shiftAt offset patches).bind fun shift => (shiftAt offset others).map (shift + ·) := by
  induction patches with
  | nil => simp [shiftAt]
  | cons p patches ih =>
    rw [List.cons_append, shiftAt, shiftAt]
    split
    · rfl
    · rw [ih]
      cases shiftAt offset patches with
      | none => rfl
      | some shift =>
        cases shiftAt offset others with
        | none => rfl
        | some further =>
          simp only [Option.bind_some, Option.map_some, Option.some.injEq]
          split <;> omega

section Image

variable {source output : Text} {patches : List Patch} {x y x' y' : Nat}

/-- Where a byte is carried is told by the shift of the patches. -/
theorem image_eq_some_iff (h : applyAll source patches = .ok output) (hlt : x < byteLength source) :
    image source patches x = some x' ↔
      ∃ shift, shiftAt x patches = some shift ∧ (x : Int) + shift = x' := by
  have hsource : [] ++ source = source := rfl
  have hat := idxOf?_originsFrom [] hsource byteLength_nil h (Nat.zero_le x) hlt
  rw [shiftAt_perm (perm_inOrder patches)] at hat
  have himage : (image source patches x).map Int.ofNat
      = (shiftAt x patches).map fun shift => (x : Int) + shift := by
    rw [image, origins, hat]
    simp
  cases hi : image source patches x with
  | none =>
    rw [hi] at himage
    cases hs : shiftAt x patches with
    | none => simp
    | some shift =>
      rw [hs] at himage
      cases himage
  | some z =>
    rw [hi] at himage
    cases hs : shiftAt x patches with
    | none =>
      rw [hs] at himage
      cases himage
    | some shift =>
      rw [hs] at himage
      have hz : (z : Int) = x + shift := Option.some.inj himage
      simp only [Option.some.injEq, exists_eq_left', ← hz, Int.natCast_inj]

/-- Without patches every byte stays where it is. -/
theorem image_nil (h : x < byteLength source) : image source [] x = some x :=
  (image_eq_some_iff (applyAll_nil source) h).2 ⟨0, rfl, Int.add_zero _⟩

/-- A byte before all patches stays where it is. -/
theorem image_of_lt_start (h : applyAll source patches = .ok output) (hlt : x < byteLength source)
    (hbefore : ∀ p ∈ patches, x < p.start) : image source patches x = some x := by
  refine (image_eq_some_iff h hlt).2 ⟨0, shiftAt_eq_zero fun p hp => ⟨hbefore p hp, ?_⟩, Int.add_zero _⟩
  exact (le_start_of_weave [] rfl byteLength_nil h p (mem_inOrder.2 hp)).2

/-- What is left of a text keeps its order. -/
theorem pairwise_originsFrom (before : Text) {rest : Text} {cursor : Nat}
    (hsource : before ++ rest = source) (hcursor : byteLength before = cursor)
    (h : weave source cursor rest patches = .ok output) :
    (originsFrom (byteLength source) cursor patches).Pairwise fun a b =>
      ∀ x y, a = some x → b = some y → x < y := by
  have hrange : ∀ cursor n, ((List.range' cursor n).map some).Pairwise fun a b =>
      ∀ x y, a = some x → b = some y → x < y := by
    intro cursor n
    refine List.pairwise_map.2 ((List.pairwise_lt_range' 1).imp ?_)
    rintro a b hlt x y hx hy
    obtain rfl := Option.some.inj hx
    obtain rfl := Option.some.inj hy
    exact hlt
  induction patches generalizing before cursor rest output with
  | nil =>
    rw [originsFrom]
    exact hrange _ _
  | cons p patches ih =>
    obtain ⟨kept, replaced, behind, woven, rfl, hkept, hreplaced, hwoven, -⟩ :=
      weave_cons_eq_ok hsource hcursor h
    have hsource' : (before ++ (kept ++ replaced)) ++ behind = source := by simpa using hsource
    have hcursor' : byteLength (before ++ (kept ++ replaced)) = p.stop := by
      simp only [byteLength_append]
      omega
    rw [originsFrom, List.pairwise_append, List.pairwise_append]
    refine ⟨hrange _ _, ⟨?_, ih _ hsource' hcursor' hwoven, ?_⟩, ?_⟩
    · exact List.pairwise_replicate.2 (.inr fun _ _ hx => by cases hx)
    · rintro a ha b _ x y rfl
      simp at ha
    · rintro a ha b hb x y rfl rfl
      obtain ⟨k, hk, hx⟩ := List.mem_map.1 ha
      obtain rfl := Option.some.inj hx
      have hbelow := List.mem_range'_1.1 hk
      rcases List.mem_append.1 hb with hb | hb
      · simp at hb
      · have := le_of_mem_originsFrom _ hsource' hcursor' hwoven hb
        omega

/-- **Bytes that are kept keep their order.** -/
theorem image_lt (h : applyAll source patches = .ok output) (hx : image source patches x = some x')
    (hy : image source patches y = some y') (hlt : x < y) : x' < y' := by
  have horder := List.pairwise_iff_getElem.1 (pairwise_originsFrom [] rfl rfl h)
  obtain ⟨hxlt, hxat, -⟩ := List.idxOf?_eq_some_iff.1 hx
  obtain ⟨hylt, hyat, -⟩ := List.idxOf?_eq_some_iff.1 hy
  rcases Nat.lt_trichotomy x' y' with hless | heq | hmore
  · exact hless
  · subst heq
    have hsame : some x = some y := hxat.symm.trans hyat
    exact absurd (Option.some.inj hsame) (by omega)
  · have hback := horder y' x' hylt hxlt hmore y x hyat hxat
    omega

end Image

/-! ## A part that is kept -/

/-- Whether patches stand apart at places of a part of a text, all of them behind its beginning. -/
structure Inside (source : Text) (low high : Nat) (own : List Patch) : Prop where
  apart : own.Pairwise Apart
  lt_start : ∀ p ∈ own, low < p.start
  forward : ∀ p ∈ own, p.start ≤ p.stop
  stop_le : ∀ p ∈ own, p.stop ≤ high
  boundary : ∀ p ∈ own, isBoundary source p.start = true ∧ isBoundary source p.stop = true

/-- What patches on both sides of a part `m` of a text make of it: they make one text of what stands
before the part and one of what stands behind it, and keep the part. -/
structure Around (l m r : Text) (patches lefts rights : List Patch) (l' r' : Text) : Prop where
  inOrder : inOrder patches = lefts ++ rights
  forward : ∀ p ∈ patches, p.start ≤ p.stop
  left : Weaves 0 l lefts l'
  right : Weaves (byteLength l + byteLength m) r rights r'
  stop_le : ∀ p ∈ lefts, p.stop ≤ byteLength l
  lt_start : ∀ p ∈ rights, byteLength l + byteLength m < p.start

/-- Patches in order that stand on two sides are those on the one side and those on the other. -/
theorem exists_sides {low high : Nat} {patches : List Patch}
    (horder : patches.Pairwise fun p q => p.start ≤ q.start)
    (hside : ∀ p ∈ patches, p.stop ≤ low ∨ high < p.start) :
    ∃ lefts rights, patches = lefts ++ rights ∧ (∀ p ∈ lefts, p.stop ≤ low) ∧
      ∀ p ∈ rights, high < p.start := by
  induction patches with
  | nil => exact ⟨[], [], rfl, by simp, by simp⟩
  | cons p patches ih =>
    obtain ⟨hfirst, hrest⟩ := List.pairwise_cons.1 horder
    rcases hside p List.mem_cons_self with hleft | hright
    · obtain ⟨lefts, rights, rfl, hlefts, hrights⟩ :=
        ih hrest fun q hq => hside q (List.mem_cons_of_mem p hq)
      refine ⟨p :: lefts, rights, rfl, ?_, hrights⟩
      rintro q hq
      rcases List.mem_cons.1 hq with rfl | hq
      · exact hleft
      · exact hlefts q hq
    · refine ⟨[], p :: patches, rfl, by simp, ?_⟩
      rintro q hq
      rcases List.mem_cons.1 hq with rfl | hq
      · exact hright
      · exact Nat.lt_of_lt_of_le hright (hfirst q hq)

/-- **A part with patches on both sides is kept.** -/
theorem exists_around {l m r text : Text} {patches : List Patch}
    (h : applyAll (l ++ (m ++ r)) patches = .ok text)
    (hside : ∀ p ∈ patches, p.stop ≤ byteLength l ∨ byteLength l + byteLength m < p.start) :
    ∃ lefts rights l' r', Around l m r patches lefts rights l' r' ∧ text = l' ++ (m ++ r') := by
  have hforward : ∀ p ∈ patches, p.start ≤ p.stop := fun p hp =>
    (le_start_of_weave [] rfl byteLength_nil h p (mem_inOrder.2 hp)).2
  obtain ⟨lefts, rights, hinOrder, hlefts, hrights⟩ :=
    exists_sides (pairwise_before_inOrder patches) fun p hp => hside p (mem_inOrder.1 hp)
  have hweaves := applyAll_eq_ok_iff.1 h
  rw [hinOrder] at hweaves
  obtain ⟨l', behind, hleft, hbehind, rfl⟩ := hweaves.split
    (fun p hp => by have := hlefts p hp; omega) (fun p hp => by have := hrights p hp; omega)
  obtain ⟨r', hright, rfl⟩ := hbehind.exists_of_le_start
    (fun p hp => by have := hrights p hp; omega)
  rw [Nat.zero_add] at hright
  exact ⟨lefts, rights, l', r', ⟨hinOrder, hforward, hleft, hright, hlefts, hrights⟩, rfl⟩

/-- Patches of a part of a text. -/
theorem applyAll_moved {m m' : Text} {own : List Patch} (h : Weaves 0 m (inOrder own) m') (l r : Text) :
    applyAll (l ++ (m ++ r)) (own.map (moved (byteLength l))) = .ok (l ++ (m' ++ r)) := by
  refine applyAll_eq_ok_iff.2 ?_
  rw [inOrder_map_moved, ← List.append_nil ((inOrder own).map _)]
  have hmoved := h.moved (byteLength l)
  rw [Nat.add_zero] at hmoved
  refine Weaves.prepend ?_
  rw [Nat.zero_add]
  exact hmoved.append (.nil _ _)

namespace Inside

variable {m : Text} {own : List Patch}

/-- They stand apart wherever the part begins. -/
theorem apart_moved (h : Inside m 0 (byteLength m) own) (n : Nat) :
    (own.map (moved n)).Pairwise Apart := by
  refine List.pairwise_map.2 (h.apart.imp ?_)
  intro p q hpq
  simp only [Apart, Precedes, moved] at hpq ⊢
  omega

/-- Where the patches stand if the part begins at `n`. -/
theorem within_moved (h : Inside m 0 (byteLength m) own) (n : Nat) :
    ∀ q ∈ own.map (moved n), n < q.start ∧ q.start ≤ q.stop ∧ q.stop ≤ n + byteLength m := by
  intro q hq
  obtain ⟨p, hp, rfl⟩ := List.mem_map.1 hq
  have := h.lt_start p hp
  have := h.forward p hp
  have := h.stop_le p hp
  simp only [moved]
  omega

/-- The patches can be applied. -/
theorem exists_weaves (h : Inside m 0 (byteLength m) own) :
    ∃ m', Weaves 0 m (Patch.inOrder own) m' := by
  obtain ⟨m', hm'⟩ := exists_applyAll h.apart h.forward h.boundary
  exact ⟨m', applyAll_eq_ok_iff.1 hm'⟩

end Inside

namespace Around

variable {l m r l' r' : Text} {patches lefts rights own : List Patch}

/-- Where the part was is told by the patches before it. -/
theorem byteLength_left (h : Around l m r patches lefts rights l' r') :
    (byteLength l' : Int) = byteLength l + totalGrowth lefts := h.left.byteLength_eq

/-- What the patches make of the text. -/
theorem applyAll (h : Around l m r patches lefts rights l' r') :
    applyAll (l ++ (m ++ r)) patches = .ok (l' ++ (m ++ r')) := by
  refine applyAll_eq_ok_iff.2 ?_
  rw [h.inOrder]
  have hright : Weaves (0 + byteLength l + byteLength m) r rights r' := by
    rw [Nat.zero_add]
    exact h.right
  exact h.left.append hright.prepend

/-- Patches of the part come behind those before it and before those behind it. -/
theorem inOrder_append (h : Around l m r patches lefts rights l' r')
    (hpatches : patches.Pairwise Apart) (hown : Inside m 0 (byteLength m) own) :
    Patch.inOrder (patches ++ own.map (moved (byteLength l)))
      = lefts ++ (Patch.inOrder (own.map (moved (byteLength l))) ++ rights) := by
  have hsides := pairwise_inOrder hpatches
  rw [h.inOrder, List.pairwise_append] at hsides
  obtain ⟨hlefts, hrights, hacross⟩ := hsides
  have hinside : ∀ q ∈ Patch.inOrder (own.map (moved (byteLength l))),
      byteLength l < q.start ∧ q.start ≤ q.stop ∧ q.stop ≤ byteLength l + byteLength m :=
    fun q hq => hown.within_moved _ q (mem_inOrder.1 hq)
  refine inOrder_eq_of_pairwise ?_ ?_
  · rw [List.pairwise_append, List.pairwise_append]
    refine ⟨hlefts, ⟨pairwise_inOrder (hown.apart_moved _), hrights, ?_⟩, ?_⟩
    · intro q hq p hp
      have := hinside q hq
      have := h.lt_start p hp
      simp only [Precedes]
      omega
    · intro p hp q hq
      rcases List.mem_append.1 hq with hq | hq
      · have := hinside q hq
        have := h.stop_le p hp
        have := h.forward p (mem_inOrder.1 (h.inOrder ▸ List.mem_append_left rights hp))
        simp only [Precedes]
        omega
      · exact hacross p hp q hq
  · have hparts : patches.Perm (lefts ++ rights) := h.inOrder ▸ (perm_inOrder patches).symm
    refine (hparts.append (perm_inOrder _).symm).trans ?_
    rw [List.append_assoc]
    exact List.perm_append_comm.append_left lefts

/-- Patches of the part that are applied together with the others. -/
theorem applyAll_append (h : Around l m r patches lefts rights l' r')
    (hpatches : patches.Pairwise Apart) (hown : Inside m 0 (byteLength m) own) {m' : Text}
    (hm' : Weaves 0 m (Patch.inOrder own) m') :
    Patch.applyAll (l ++ (m ++ r)) (patches ++ own.map (moved (byteLength l)))
      = .ok (l' ++ (m' ++ r')) := by
  refine applyAll_eq_ok_iff.2 ?_
  rw [h.inOrder_append hpatches hown, inOrder_map_moved]
  refine h.left.append (.append ?_ ?_)
  · have hmoved := hm'.moved (byteLength l)
    rwa [Nat.zero_add]
  · rw [Nat.zero_add]
    exact h.right

/-- A byte of the part is carried along with it. -/
theorem image_of_within (h : Around l m r patches lefts rights l' r') {n : Nat}
    (hn : n < byteLength m) :
    image (l ++ (m ++ r)) patches (byteLength l + n) = some (byteLength l' + n) := by
  refine (image_eq_some_iff h.applyAll (by simp only [byteLength_append]; omega)).2 ?_
  refine ⟨totalGrowth lefts, ?_, ?_⟩
  · have hlefts : ∀ p ∈ lefts, p.stop ≤ byteLength l + n := fun p hp =>
      Nat.le_add_right_of_le (h.stop_le p hp)
    have hrights : ∀ p ∈ rights, byteLength l + n < p.start ∧ p.start ≤ p.stop := fun p hp =>
      ⟨by have := h.lt_start p hp; omega,
        h.forward p (mem_inOrder.1 (h.inOrder ▸ List.mem_append_right lefts hp))⟩
    rw [← shiftAt_perm (perm_inOrder patches), h.inOrder, shiftAt_append, shiftAt_of_stop_le hlefts,
      shiftAt_eq_zero hrights]
    simp
  · have := h.byteLength_left
    omega

/-- **A byte outside the part** is carried by the patches of the part from where the others have
carried it to where all the patches together carry it. -/
theorem image_append (h : Around l m r patches lefts rights l' r')
    (hpatches : patches.Pairwise Apart) (hown : Inside m 0 (byteLength m) own)
    (hm : 0 < byteLength m) {x x' : Nat}
    (hx : x < byteLength (l ++ (m ++ r)))
    (houtside : x < byteLength l ∨ byteLength l + byteLength m ≤ x)
    (himage : image (l ++ (m ++ r)) patches x = some x') :
    image (l' ++ (m ++ r')) (own.map (moved (byteLength l'))) x'
      = image (l ++ (m ++ r)) (patches ++ own.map (moved (byteLength l))) x := by
  obtain ⟨m', hm'⟩ := hown.exists_weaves
  obtain ⟨shift, hshift, hat⟩ := (image_eq_some_iff h.applyAll hx).1 himage
  have hx' : x' < byteLength (l' ++ (m ++ r')) := (getElem?_of_image h.applyAll himage).1
  -- The part moves the byte by as much before the others as behind them.
  have hsame : ∃ further, shiftAt x (own.map (moved (byteLength l))) = some further ∧
      shiftAt x' (own.map (moved (byteLength l'))) = some further := by
    rcases houtside with hbefore | hbehind
    · have hfirst : image (l ++ (m ++ r)) patches (byteLength l) = some (byteLength l') :=
        h.image_of_within hm
      have hbefore' := image_lt h.applyAll himage hfirst hbefore
      refine ⟨0, shiftAt_eq_zero fun q hq => ?_, shiftAt_eq_zero fun q hq => ?_⟩
      · have := hown.within_moved _ q hq
        omega
      · have := hown.within_moved _ q hq
        omega
    · have hlast := h.image_of_within (n := byteLength m - 1) (by omega)
      have hbehind' := image_lt h.applyAll hlast himage (by omega)
      refine ⟨totalGrowth own, ?_, ?_⟩
      · rw [shiftAt_of_stop_le fun q hq => by have := hown.within_moved _ q hq; omega,
          totalGrowth_moved]
      · rw [shiftAt_of_stop_le fun q hq => by have := hown.within_moved _ q hq; omega,
          totalGrowth_moved]
  obtain ⟨further, hfurther, hfurther'⟩ := hsame
  refine Option.ext fun z => ?_
  rw [image_eq_some_iff (applyAll_moved hm' l' r') hx',
    image_eq_some_iff (h.applyAll_append hpatches hown hm') hx, shiftAt_append, hshift, hfurther,
    hfurther']
  simp only [Option.bind_some, Option.map_some, Option.some.injEq, exists_eq_left']
  omega

end Around

end Patch

end Retouch
