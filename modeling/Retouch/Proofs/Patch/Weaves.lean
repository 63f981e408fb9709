import Retouch.Proofs.Patch.Origins

/-!
# Patches on the parts of a text

What patches make of a text is put together from what they make of its parts. `Weaves` says what
patches in order make of a part of a text, without the tests of `Patch.weave` (`weave_eq_ok_iff`).
Patches of two parts, one behind the other, can be taken together or apart (`Weaves.append`,
`Weaves.split`), and a part can be moved (`Weaves.moved`).
-/

namespace Retouch

open Text

namespace Patch

/-- The patch of a text that has `n` more bytes before it. -/
def moved (n : Nat) (p : Patch) : Patch := ⟨n + p.start, n + p.stop, p.text⟩

theorem growth_moved (n : Nat) (p : Patch) : (p.moved n).growth = p.growth := by
  simp only [growth, moved]
  omega

/-- How many bytes longer patches make a text. -/
def totalGrowth : List Patch → Int
  | [] => 0
  | p :: patches => p.growth + totalGrowth patches

theorem totalGrowth_moved (n : Nat) (patches : List Patch) :
    totalGrowth (patches.map (moved n)) = totalGrowth patches := by
  induction patches with
  | nil => rfl
  | cons p patches ih => rw [List.map_cons, totalGrowth, totalGrowth, growth_moved, ih]

/-! ## What patches make of a part of a text -/

/-- What patches in order make of the part of a text that begins at the offset `cursor`. -/
inductive Weaves : (cursor : Nat) → (rest : Text) → List Patch → (output : Text) → Prop
  | nil (cursor : Nat) (rest : Text) : Weaves cursor rest [] rest
  | cons {cursor : Nat} {kept replaced behind woven : Text} {p : Patch} {patches : List Patch}
      (start : cursor + byteLength kept = p.start) (stop : p.start + byteLength replaced = p.stop)
      (later : Weaves p.stop behind patches woven) :
      Weaves cursor (kept ++ (replaced ++ behind)) (p :: patches) (kept ++ p.text ++ woven)

/-- Patches can be applied to the rest of a text exactly if they make something of it. -/
theorem weave_eq_ok_iff (before : Text) {source rest output : Text} {cursor : Nat}
    {patches : List Patch} (hsource : before ++ rest = source) (hcursor : byteLength before = cursor) :
    weave source cursor rest patches = .ok output ↔ Weaves cursor rest patches output := by
  constructor
  · intro h
    induction patches generalizing before cursor rest output with
    | nil =>
      obtain rfl := Except.ok.inj h
      exact .nil cursor rest
    | cons p patches ih =>
      obtain ⟨kept, replaced, behind, woven, rfl, hkept, hreplaced, hwoven, rfl⟩ :=
        weave_cons_eq_ok hsource hcursor h
      refine .cons hkept hreplaced (ih (before ++ (kept ++ replaced)) ?_ ?_ hwoven)
      · simpa using hsource
      · simp only [byteLength_append]
        omega
  · intro h
    induction h generalizing before with
    | nil cursor rest => rfl
    | @cons cursor kept replaced behind woven p patches hstart hstop hlater ih =>
      have hwoven := ih (before ++ (kept ++ replaced)) (by simpa using hsource)
        (by simp only [byteLength_append]; omega)
      have hlength := congrArg byteLength hsource
      simp only [byteLength_append] at hlength
      have hbegin : isBoundary source p.start = true :=
        isBoundary_iff.2 ⟨before ++ kept, replaced ++ behind, by simpa using hsource,
          by simp only [byteLength_append]; omega⟩
      have hend : isBoundary source p.stop = true :=
        isBoundary_iff.2 ⟨before ++ (kept ++ replaced), behind, by simpa using hsource,
          by simp only [byteLength_append]; omega⟩
      have hkept : p.start - cursor = byteLength kept := by omega
      have hreplaced : p.stop - p.start = byteLength replaced := by omega
      rw [weave, if_neg (by omega), hbegin, hend, if_neg (by decide), if_neg (by omega), hkept,
        splitAt?_append]
      simp only [Option.getD_some]
      rw [hreplaced, splitAt?_append]
      simp only [Option.getD_some, hwoven]
      rfl

theorem applyAll_eq_ok_iff {source output : Text} {patches : List Patch} :
    applyAll source patches = .ok output ↔ Weaves 0 source (inOrder patches) output :=
  weave_eq_ok_iff [] rfl rfl

/-- Without patches a text stays as it is. -/
theorem applyAll_nil (source : Text) : applyAll source [] = .ok source := by
  rw [applyAll_eq_ok_iff, inOrder, List.mergeSort_nil]
  exact .nil _ _

/-- One patch replaces the part of a text that it stands for. -/
theorem applyAll_single {before replaced behind : Text} {p : Patch}
    (hstart : byteLength before = p.start) (hstop : p.start + byteLength replaced = p.stop) :
    applyAll (before ++ (replaced ++ behind)) [p] = .ok (before ++ p.text ++ behind) := by
  refine applyAll_eq_ok_iff.2 ?_
  rw [inOrder, List.mergeSort_singleton]
  exact .cons (by omega) hstop (.nil _ _)

namespace Weaves

variable {cursor : Nat} {l r l' r' rest output : Text} {patches more : List Patch}

/-- Text before the first patch is kept. -/
theorem prepend (h : Weaves (cursor + byteLength l) rest patches output) :
    Weaves cursor (l ++ rest) patches (l ++ output) := by
  cases h with
  | nil => exact .nil _ _
  | @cons _ kept replaced behind woven p patches hstart hstop hlater =>
    have hall : Weaves cursor ((l ++ kept) ++ (replaced ++ behind)) (p :: patches)
        ((l ++ kept) ++ p.text ++ woven) :=
      .cons (by simp only [byteLength_append]; omega) hstop hlater
    simpa only [List.append_assoc] using hall

/-- Patches of one part of a text and patches of the part behind it. -/
theorem append (hl : Weaves cursor l patches l')
    (hr : Weaves (cursor + byteLength l) r more r') :
    Weaves cursor (l ++ r) (patches ++ more) (l' ++ r') := by
  induction hl with
  | nil cursor rest => exact prepend hr
  | @cons cursor kept replaced behind woven p patches hstart hstop hlater ih =>
    have hbehind := ih (by
      have hplace : p.stop + byteLength behind
          = cursor + byteLength (kept ++ (replaced ++ behind)) := by
        simp only [byteLength_append]
        omega
      rw [hplace]
      exact hr)
    have hall := Weaves.cons hstart hstop hbehind
    simpa only [List.append_assoc, List.cons_append] using hall

/-- Patches that begin behind a part of a text keep it. -/
theorem exists_of_le_start (h : Weaves cursor (l ++ r) patches output)
    (hpatches : ∀ p ∈ patches, cursor + byteLength l ≤ p.start) :
    ∃ r', Weaves (cursor + byteLength l) r patches r' ∧ output = l ++ r' := by
  generalize hrest : l ++ r = rest at h
  cases h with
  | nil =>
    subst hrest
    exact ⟨r, .nil _ _, rfl⟩
  | @cons _ kept replaced behind woven p patches hstart hstop hlater =>
    have hbegin := hpatches p List.mem_cons_self
    obtain ⟨m, rfl, rfl⟩ := exists_eq_append_of_byteLength_le hrest (by omega)
    refine ⟨m ++ p.text ++ woven, .cons ?_ hstop hlater, by simp⟩
    simp only [byteLength_append] at hstart
    omega

/-- Patches of which some end before a place of a text and the others begin behind it. -/
theorem split (h : Weaves cursor (l ++ r) (patches ++ more) output)
    (hpatches : ∀ p ∈ patches, p.stop ≤ cursor + byteLength l)
    (hmore : ∀ p ∈ more, cursor + byteLength l ≤ p.start) :
    ∃ l' r', Weaves cursor l patches l' ∧ Weaves (cursor + byteLength l) r more r' ∧
      output = l' ++ r' := by
  induction patches generalizing cursor l output with
  | nil =>
    obtain ⟨r', hr, rfl⟩ := h.exists_of_le_start hmore
    exact ⟨l, r', .nil _ _, hr, rfl⟩
  | cons p patches ih =>
    generalize hrest : l ++ r = rest at h
    cases h with
    | @cons _ kept replaced behind woven _ _ hstart hstop hlater =>
      have hend := hpatches p List.mem_cons_self
      have hjoined : (kept ++ replaced) ++ behind = l ++ r := by rw [hrest, List.append_assoc]
      obtain ⟨m, rfl, rfl⟩ := exists_eq_append_of_byteLength_le hjoined
        (by simp only [byteLength_append]; omega)
      have hplace : p.stop + byteLength m = cursor + byteLength ((kept ++ replaced) ++ m) := by
        simp only [byteLength_append]
        omega
      obtain ⟨m', r', hm, hr, rfl⟩ := ih hlater
        (fun q hq => hplace ▸ hpatches q (List.mem_cons_of_mem p hq)) (hplace ▸ hmore)
      refine ⟨kept ++ p.text ++ m', r', ?_, hplace ▸ hr, by simp⟩
      rw [List.append_assoc kept]
      exact .cons hstart hstop hm

/-- A text with more bytes before it. -/
theorem moved (h : Weaves cursor rest patches output) (n : Nat) :
    Weaves (n + cursor) rest (patches.map (Patch.moved n)) output := by
  induction h with
  | nil cursor rest => exact .nil _ _
  | @cons cursor kept replaced behind woven p patches hstart hstop hlater ih =>
    exact .cons (p := p.moved n) (by simp only [Patch.moved]; omega)
      (by simp only [Patch.moved]; omega) ih

/-- How long the text becomes. -/
theorem byteLength_eq (h : Weaves cursor rest patches output) :
    (byteLength output : Int) = byteLength rest + totalGrowth patches := by
  induction h with
  | nil cursor rest => exact (Int.add_zero _).symm
  | @cons cursor kept replaced behind woven p patches hstart hstop hlater ih =>
    simp only [byteLength_append, totalGrowth, growth, Int.natCast_add] at ih ⊢
    omega

/-- Patches that stand one behind the other at places of a text make something of it. -/
theorem exists_of_pairwise (before : Text) {source : Text} (hsource : before ++ rest = source)
    (hcursor : byteLength before = cursor) (horder : patches.Pairwise fun p q => p.stop ≤ q.start)
    (hwithin : ∀ p ∈ patches, cursor ≤ p.start ∧ p.start ≤ p.stop)
    (hboundary : ∀ p ∈ patches, isBoundary source p.start = true ∧ isBoundary source p.stop = true) :
    ∃ output, Weaves cursor rest patches output := by
  induction patches generalizing before rest cursor with
  | nil => exact ⟨rest, .nil _ _⟩
  | cons p patches ih =>
    obtain ⟨hstart, hstop⟩ := hwithin p List.mem_cons_self
    obtain ⟨hbegin, hfinish⟩ := hboundary p List.mem_cons_self
    obtain ⟨toStart, fromStart, hs, hslength⟩ := isBoundary_iff.1 hbegin
    obtain ⟨toStop, behind, ht, htlength⟩ := isBoundary_iff.1 hfinish
    obtain ⟨kept, rfl, rfl⟩ := exists_eq_append_of_byteLength_le (hsource.trans hs.symm) (by omega)
    obtain ⟨replaced, rfl, rfl⟩ := exists_eq_append_of_byteLength_le (hs.trans ht.symm) (by omega)
    have hkept : cursor + byteLength kept = p.start := by
      rw [byteLength_append] at hslength
      omega
    have hreplaced : p.start + byteLength replaced = p.stop := by
      rw [byteLength_append] at htlength
      omega
    obtain ⟨horder, hlater⟩ := List.pairwise_cons.1 horder
    obtain ⟨woven, hwoven⟩ := ih _ ht htlength hlater
      (fun q hq => ⟨horder q hq, (hwithin q (List.mem_cons_of_mem p hq)).2⟩)
      (fun q hq => hboundary q (List.mem_cons_of_mem p hq))
    exact ⟨_, .cons hkept hreplaced hwoven⟩

end Weaves

end Patch

end Retouch
