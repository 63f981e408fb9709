import Mathlib.Data.List.Chain
import Retouch.Proofs.Patch.Apart

/-!
# Patching by splicing

`Patch.applyAll` goes through a text once, with the patches in order. This is compared with putting
the patches into the whole text one at a time (`splice`), from the last of them to the first: when the
turn of a patch comes, nothing has changed before its end, so that its offsets still hold.

* `inOrder_eq_of_reordered`: the order of patches depends only on which patches there are for each
  range, and in which order those are given.
* `applyAll_ok_iff`, `applyAll_error_iff`: when patches can be applied and what comes of it, and which
  patch is to blame if they cannot.
* `filterMap_origins`: the bytes that are kept are those outside the patches, in their old order.
* `applyAll_eq_splicing`: all of this in one statement.
-/

namespace Retouch

open Text

namespace Patch

/-! ## The order of patches -/

section Order

variable {patches others : List Patch} {start stop : Nat} {p q : Patch}

/-- Whether a patch replaces the range from `start` up to `stop`. -/
def hasRange (start stop : Nat) (p : Patch) : Bool := p.start == start && p.stop == stop

theorem hasRange_iff : p.hasRange start stop = true ↔ p.start = start ∧ p.stop = stop := by
  simp [hasRange]

theorem hasRange_self (p : Patch) : p.hasRange p.start p.stop = true := hasRange_iff.2 ⟨rfl, rfl⟩

/-- A list is another one in a different order in which patches of one range follow each other as
they did. -/
structure Reordered (patches others : List Patch) : Prop where
  perm : patches.Perm others
  filter_eq : ∀ start stop, patches.filter (hasRange start stop) = others.filter (hasRange start stop)

instance (patches others : List Patch) : Decidable (Reordered patches others) :=
  decidable_of_iff (patches.Perm others ∧ ∀ p ∈ patches,
      patches.filter (hasRange p.start p.stop) = others.filter (hasRange p.start p.stop)) <| by
    refine ⟨fun ⟨hperm, hfilter⟩ => ⟨hperm, fun start stop => ?_⟩,
      fun h => ⟨h.perm, fun p _ => h.filter_eq p.start p.stop⟩⟩
    by_cases hsome : ∃ p ∈ patches, p.hasRange start stop = true
    · obtain ⟨p, hp, hrange⟩ := hsome
      obtain ⟨rfl, rfl⟩ := hasRange_iff.1 hrange
      exact hfilter p hp
    · have hnone : ∀ p ∈ patches, ¬ p.hasRange start stop = true :=
        fun p hp hrange => hsome ⟨p, hp, hrange⟩
      rw [List.filter_eq_nil_iff.2 hnone,
        List.filter_eq_nil_iff.2 fun p hp => hnone p (hperm.mem_iff.2 hp)]

/-- Patches of one range stay as they were given. -/
theorem filter_inOrder (patches : List Patch) (start stop : Nat) :
    (inOrder patches).filter (hasRange start stop) = patches.filter (hasRange start stop) := by
  have hsorted : (patches.filter (hasRange start stop)).Pairwise fun p q => p.before q = true := by
    refine List.Pairwise.imp_of_mem (R := fun _ _ => True) (fun {p q} hp hq _ => ?_)
      (List.pairwise_of_forall fun _ _ => trivial)
    obtain ⟨hps, hpt⟩ := hasRange_iff.1 (List.mem_filter.1 hp).2
    obtain ⟨hqs, hqt⟩ := hasRange_iff.1 (List.mem_filter.1 hq).2
    simp [before, hps, hpt, hqs, hqt]
  have hsub : (patches.filter (hasRange start stop)).Sublist (inOrder patches) :=
    List.sublist_mergeSort before_trans before_total hsorted List.filter_sublist
  have hwithin := hsub.filter (hasRange start stop)
  simp only [List.filter_filter, Bool.and_self] at hwithin
  exact (hwithin.eq_of_length ((perm_inOrder patches).filter _).length_eq.symm).symm

/-- What is in order for good is put in order as it is. -/
theorem reordered_inOrder (patches : List Patch) : Reordered (inOrder patches) patches :=
  ⟨perm_inOrder patches, filter_inOrder patches⟩

theorem range_eq_of_before (hpq : p.before q = true) (hqp : q.before p = true) :
    q.hasRange p.start p.stop = true := by
  simp only [before, Bool.or_eq_true, decide_eq_true_eq, Bool.and_eq_true, beq_iff_eq] at hpq hqp
  exact hasRange_iff.2 (by omega)

theorem Reordered.tail (h : Reordered (p :: patches) (p :: others)) : Reordered patches others := by
  refine ⟨List.Perm.cons_inv h.perm, fun start stop => ?_⟩
  have hfilter := h.filter_eq start stop
  rw [List.filter_cons, List.filter_cons] at hfilter
  split at hfilter
  · exact (List.cons.inj hfilter).2
  · exact hfilter

/-- There is only one way to put patches in order that keeps those of one range as they are. -/
theorem Reordered.eq_of_pairwise (h : Reordered patches others)
    (hpatches : patches.Pairwise fun p q => p.before q = true)
    (hothers : others.Pairwise fun p q => p.before q = true) : patches = others := by
  induction patches generalizing others with
  | nil => exact (List.Perm.nil_eq h.perm)
  | cons p patches ih =>
    obtain _ | ⟨q, others⟩ := others
    · exact absurd h.perm.length_eq (by simp)
    · have hleast : ∀ {a : Patch} {l : List Patch},
          (a :: l).Pairwise (fun p q => p.before q = true) → ∀ b ∈ a :: l, a.before b = true := by
        intro a l hl b hb
        obtain rfl | hb := List.mem_cons.1 hb
        · simpa using before_total b b
        · exact (List.pairwise_cons.1 hl).1 b hb
      have hpq : p.before q = true := hleast hpatches q (h.perm.mem_iff.2 List.mem_cons_self)
      have hqp : q.before p = true := hleast hothers p (h.perm.mem_iff.1 List.mem_cons_self)
      -- both are the first patch of their range
      have hfirst := h.filter_eq p.start p.stop
      rw [List.filter_cons_of_pos (hasRange_self p),
        List.filter_cons_of_pos (range_eq_of_before hpq hqp)] at hfirst
      obtain rfl := (List.cons.inj hfirst).1
      rw [ih h.tail (List.pairwise_cons.1 hpatches).2 (List.pairwise_cons.1 hothers).2]

/-- **Only the order of patches of one range matters.** -/
theorem inOrder_eq_of_reordered (h : Reordered patches others) : inOrder patches = inOrder others := by
  refine Reordered.eq_of_pairwise ⟨?_, fun start stop => ?_⟩
    (List.pairwise_mergeSort before_trans before_total patches)
    (List.pairwise_mergeSort before_trans before_total others)
  · exact (perm_inOrder patches).trans (h.perm.trans (perm_inOrder others).symm)
  · exact (filter_inOrder patches start stop).trans
      ((h.filter_eq start stop).trans (filter_inOrder others start stop).symm)

end Order

/-! ## Patches one at a time -/

/-- Whether the range of a patch is one of a text. -/
structure Fits (source : Text) (p : Patch) : Prop where
  forward : p.start ≤ p.stop
  stop_le : p.stop ≤ byteLength source
  boundary : isBoundary source p.start = true ∧ isBoundary source p.stop = true

/-- What is wrong with a patch if the one before it ends at `cursor`. -/
inductive Fault (source : Text) (cursor : Nat) (p : Patch) : PatchError → Prop
  | outOfBounds (outside : p.stop < p.start ∨ byteLength source < p.stop) :
    Fault source cursor p (.outOfBounds p.start p.stop (byteLength source))
  | notCharBoundary (forward : p.start ≤ p.stop) (stop_le : p.stop ≤ byteLength source)
      (inside : isBoundary source p.start = false ∨ isBoundary source p.stop = false) :
    Fault source cursor p (.notCharBoundary p.start p.stop)
  | overlapping (fits : p.Fits source) (back : p.start < cursor) :
    Fault source cursor p (.overlapping p.start cursor)

/-- The text with one patch put in. -/
def splice (p : Patch) (source : Text) : Text :=
  match splitAt? source p.start, splitAt? source p.stop with
  | some (kept, _), some (_, behind) => kept ++ p.text ++ behind
  | _, _ => source

/-- Where the last of some patches ends, `cursor` if there are none. -/
def lastStop (cursor : Nat) : List Patch → Nat
  | [] => cursor
  | p :: patches => lastStop p.stop patches

/-- Whether patches have ranges of a text, the first from `cursor` on and each of the others from the
end of the one before it on. -/
def Sound (source : Text) : (cursor : Nat) → List Patch → Prop
  | _, [] => True
  | cursor, p :: patches => (p.Fits source ∧ cursor ≤ p.start) ∧ Sound source p.stop patches

section Weave

variable {source before rest : Text} {cursor : Nat} {p : Patch} {patches done : List Patch}
  {error : PatchError}

theorem splice_append {kept replaced behind : Text} (hstart : byteLength kept = p.start)
    (hstop : p.start + byteLength replaced = p.stop) :
    splice p (kept ++ replaced ++ behind) = kept ++ p.text ++ behind := by
  have hcut : splitAt? (kept ++ replaced ++ behind) p.stop = some (kept ++ replaced, behind) := by
    rw [← hstop, ← hstart, ← byteLength_append, splitAt?_append]
  rw [splice, hcut, ← hstart, List.append_assoc kept, splitAt?_append]

/-- A patch either follows the one before it as it should or has a fault. -/
theorem fits_or_fault (source : Text) (cursor : Nat) (p : Patch) :
    (p.Fits source ∧ cursor ≤ p.start) ∨ ∃ error, Fault source cursor p error := by
  by_cases hbounds : p.start ≤ p.stop ∧ p.stop ≤ byteLength source
  · by_cases hboundary : isBoundary source p.start = true ∧ isBoundary source p.stop = true
    · have hfits : p.Fits source := ⟨hbounds.1, hbounds.2, hboundary⟩
      by_cases hcursor : cursor ≤ p.start
      · exact .inl ⟨hfits, hcursor⟩
      · exact .inr ⟨_, .overlapping hfits (by omega)⟩
    · refine .inr ⟨_, .notCharBoundary hbounds.1 hbounds.2 ?_⟩
      rwa [← Bool.not_eq_true, ← Bool.not_eq_true, ← not_and_or]
  · exact .inr ⟨_, .outOfBounds (by omega)⟩

/-- A patch with a fault stops the weaving. -/
theorem weave_of_fault (rest : Text) (patches : List Patch) (h : Fault source cursor p error) :
    weave source cursor rest (p :: patches) = .error error := by
  rw [weave]
  cases h with
  | outOfBounds outside => rw [if_pos (by omega)]
  | notCharBoundary forward stop_le inside =>
    rw [if_neg (by omega), if_pos]
    obtain h | h := inside <;> simp [h]
  | overlapping fits back =>
    have := fits.forward
    have := fits.stop_le
    rw [if_neg (by omega), fits.boundary.1, fits.boundary.2, if_neg (by decide), if_pos back]

/-- A patch that follows the one before it as it should cuts the rest of the text in three. -/
theorem Fits.exists_cut (h : p.Fits source) (hle : cursor ≤ p.start) (hsource : before ++ rest = source)
    (hcursor : byteLength before = cursor) :
    ∃ kept replaced behind, rest = kept ++ (replaced ++ behind) ∧ cursor + byteLength kept = p.start ∧
      p.start + byteLength replaced = p.stop := by
  obtain ⟨toStart, fromStart, hs, hslength⟩ := isBoundary_iff.1 h.boundary.1
  obtain ⟨toStop, behind, ht, htlength⟩ := isBoundary_iff.1 h.boundary.2
  have hforward := h.forward
  obtain ⟨kept, rfl, rfl⟩ := exists_eq_append_of_byteLength_le (hsource.trans hs.symm) (by omega)
  obtain ⟨replaced, rfl, rfl⟩ := exists_eq_append_of_byteLength_le (hs.trans ht.symm) (by omega)
  simp only [byteLength_append] at hslength htlength
  exact ⟨kept, replaced, behind, rfl, by omega, by omega⟩

/-- The weaving goes on behind such a patch. -/
theorem Fits.weave_cons {kept replaced behind : Text} (h : p.Fits source)
    (hstart : cursor + byteLength kept = p.start) (hstop : p.start + byteLength replaced = p.stop)
    (patches : List Patch) :
    weave source cursor (kept ++ (replaced ++ behind)) (p :: patches)
      = (weave source p.stop behind patches).map fun woven => kept ++ p.text ++ woven := by
  have hforward := h.forward
  have hwithin := h.stop_le
  have hkept : p.start - cursor = byteLength kept := by omega
  have hreplaced : p.stop - p.start = byteLength replaced := by omega
  rw [weave, if_neg (by omega), h.boundary.1, h.boundary.2, if_neg (by decide), if_neg (by omega),
    hkept, splitAt?_append]
  simp only [Option.getD_some]
  rw [hreplaced, splitAt?_append]
  simp only [Option.getD_some]
  cases weave source p.stop behind patches <;> rfl

/-- **Weaving is splicing** from the last patch to the first. -/
theorem Sound.exists_weave (before : Text) (h : Sound source cursor patches)
    (hsource : before ++ rest = source) (hcursor : byteLength before = cursor) :
    ∃ output, weave source cursor rest patches = .ok output ∧
      patches.foldr splice source = before ++ output := by
  induction patches generalizing before rest cursor with
  | nil => exact ⟨rest, rfl, hsource.symm⟩
  | cons p patches ih =>
    obtain ⟨⟨hfits, hle⟩, hlater⟩ := h
    obtain ⟨kept, replaced, behind, rfl, hstart, hstop⟩ := hfits.exists_cut hle hsource hcursor
    have hsource' : (before ++ (kept ++ replaced)) ++ behind = source := by simpa using hsource
    obtain ⟨woven, hwoven, hsplices⟩ :=
      ih _ hlater hsource' (by simp only [byteLength_append]; omega)
    refine ⟨kept ++ p.text ++ woven, ?_, ?_⟩
    · rw [hfits.weave_cons hstart hstop, hwoven]
      rfl
    · rw [List.foldr_cons, hsplices, ← List.append_assoc before, splice_append _ hstop]
      · simp
      · rw [byteLength_append]
        omega

/-- A fault is reported if all is well before it. -/
theorem Sound.weave_append (before : Text) (later : List Patch) (h : Sound source cursor done)
    (hfault : Fault source (lastStop cursor done) p error) (hsource : before ++ rest = source)
    (hcursor : byteLength before = cursor) :
    weave source cursor rest (done ++ p :: later) = .error error := by
  induction done generalizing before rest cursor with
  | nil => exact weave_of_fault rest later hfault
  | cons q done ih =>
    obtain ⟨⟨hfits, hle⟩, hdone⟩ := h
    obtain ⟨kept, replaced, behind, rfl, hstart, hstop⟩ := hfits.exists_cut hle hsource hcursor
    have hsource' : (before ++ (kept ++ replaced)) ++ behind = source := by simpa using hsource
    have hrest := ih _ hdone hfault hsource' (by simp only [byteLength_append]; omega)
    rw [List.cons_append, hfits.weave_cons hstart hstop, hrest]
    rfl

/-- Patches are sound or there is a first one with a fault. -/
theorem sound_or_fault (source : Text) (cursor : Nat) (patches : List Patch) :
    Sound source cursor patches ∨ ∃ done p later error, patches = done ++ p :: later ∧
      Sound source cursor done ∧ Fault source (lastStop cursor done) p error := by
  induction patches generalizing cursor with
  | nil => exact .inl trivial
  | cons p patches ih =>
    obtain hp | ⟨error, hfault⟩ := fits_or_fault source cursor p
    · obtain hlater | ⟨done, q, later, error, rfl, hdone, hfault⟩ := ih p.stop
      · exact .inl ⟨hp, hlater⟩
      · exact .inr ⟨p :: done, q, later, error, rfl, ⟨hp, hdone⟩, hfault⟩
    · exact .inr ⟨[], p, patches, error, rfl, trivial, hfault⟩

/-- What it means for patches to be sound. -/
theorem sound_iff : Sound source cursor patches ↔ (∀ p ∈ patches, p.Fits source) ∧
    patches.IsChain (fun p q => p.stop ≤ q.start) ∧ ∀ p ∈ patches.head?, cursor ≤ p.start := by
  induction patches generalizing cursor with
  | nil => simp [Sound]
  | cons p patches ih =>
    rw [Sound, ih, List.forall_mem_cons, List.isChain_cons]
    simp only [List.head?_cons, Option.mem_some, forall_eq']
    tauto

end Weave

/-! ## Patches in any order -/

section ApplyAll

variable {source output : Text} {patches others : List Patch} {error : PatchError}

/-- Whether patches have ranges of a text, and each in order begins where the one before it ends or
behind that. -/
structure Applicable (source : Text) (patches : List Patch) : Prop where
  fits : ∀ p ∈ patches, p.Fits source
  chain : patches.IsChain fun p q => p.stop ≤ q.start

theorem sound_zero_iff : Sound source 0 patches ↔ Applicable source patches := by
  rw [sound_iff]
  exact ⟨fun ⟨hfits, hchain, _⟩ => ⟨hfits, hchain⟩, fun h => ⟨h.fits, h.chain, fun _ _ => Nat.zero_le _⟩⟩

/-- **What patches make of a text** is what they make of it one at a time. -/
theorem applyAll_ok_iff : applyAll source patches = .ok output ↔
    Applicable source (inOrder patches) ∧ (inOrder patches).foldr splice source = output := by
  rw [← sound_zero_iff, applyAll]
  constructor
  · intro h
    obtain hsound | ⟨done, p, later, error, hlist, hdone, hfault⟩ :=
      sound_or_fault source 0 (inOrder patches)
    · obtain ⟨output', hweave, hsplices⟩ := hsound.exists_weave [] rfl rfl
      obtain rfl := Except.ok.inj (hweave.symm.trans h)
      exact ⟨hsound, hsplices⟩
    · rw [hlist, hdone.weave_append [] later hfault rfl rfl] at h
      cases h
  · rintro ⟨hsound, rfl⟩
    obtain ⟨output, hweave, hsplices⟩ := hsound.exists_weave [] rfl rfl
    rw [hweave, hsplices]
    rfl

/-- **Why patches cannot be applied**: the first one that is at fault tells. -/
theorem applyAll_error_iff : applyAll source patches = .error error ↔
    ∃ done p later, inOrder patches = done ++ p :: later ∧ Applicable source done ∧
      Fault source (lastStop 0 done) p error := by
  simp only [← sound_zero_iff]
  rw [applyAll]
  constructor
  · intro h
    obtain hsound | ⟨done, p, later, error', hlist, hdone, hfault⟩ :=
      sound_or_fault source 0 (inOrder patches)
    · obtain ⟨output, hweave, -⟩ := hsound.exists_weave [] rfl rfl
      cases hweave.symm.trans h
    · have herror := hdone.weave_append [] later hfault rfl rfl
      rw [← hlist, h] at herror
      obtain rfl := Except.error.inj herror
      exact ⟨done, p, later, hlist, hdone, hfault⟩
  · rintro ⟨done, p, later, hlist, hdone, hfault⟩
    rw [hlist, hdone.weave_append [] later hfault rfl rfl]

/-! ### The bytes that are kept -/

/-- Whether the byte at an offset is outside the range of a patch. -/
def spares (offset : Nat) (p : Patch) : Bool := offset < p.start || p.stop ≤ offset

theorem range'_append_range' {a b c : Nat} (hab : a ≤ b) (hbc : b ≤ c) :
    List.range' a (c - a) = List.range' a (b - a) ++ List.range' b (c - b) := by
  have h := List.range'_append_1 (s := a) (m := b - a) (n := c - b)
  rw [show a + (b - a) = b by omega, show b - a + (c - b) = c - a by omega] at h
  exact h.symm

/-- Patches of a part of a text begin in it. -/
theorem Weaves.le_start {cursor : Nat} {rest : Text} (h : Weaves cursor rest patches output) :
    ∀ p ∈ patches, cursor ≤ p.start := by
  induction h with
  | nil => simp
  | cons hstart hstop hlater ih =>
    refine List.forall_mem_cons.2 ⟨by omega, fun q hq => ?_⟩
    have := ih q hq
    omega

/-- The bytes that patches in order keep of a part of a text. -/
theorem Weaves.filterMap_originsFrom {length cursor : Nat} {rest : Text}
    (h : Weaves cursor rest patches output) (hlength : cursor + byteLength rest = length) :
    (originsFrom length cursor patches).filterMap id
      = (List.range' cursor (length - cursor)).filter fun offset => patches.all (spares offset) := by
  induction h with
  | nil cursor rest => simp [originsFrom, List.filterMap_map]
  | @cons cursor kept replaced behind woven p patches hstart hstop hlater ih =>
    simp only [byteLength_append] at hlength
    have hbehind := hlater.le_start
    have hkept : ∀ offset ∈ List.range' cursor (p.start - cursor),
        (p :: patches).all (spares offset) = true := by
      intro offset hoffset
      have := List.mem_range'_1.1 hoffset
      refine List.all_eq_true.2 (List.forall_mem_cons.2 ⟨?_, fun q hq => ?_⟩)
      · simp only [spares, Bool.or_eq_true, decide_eq_true_eq]
        omega
      · have := hbehind q hq
        simp only [spares, Bool.or_eq_true, decide_eq_true_eq]
        omega
    have hgone : ∀ offset ∈ List.range' p.start (p.stop - p.start),
        ¬ (p :: patches).all (spares offset) = true := by
      intro offset hoffset hall
      have := List.mem_range'_1.1 hoffset
      have hspares := List.all_eq_true.1 hall p List.mem_cons_self
      simp only [spares, Bool.or_eq_true, decide_eq_true_eq] at hspares
      omega
    have hlater : ∀ offset ∈ List.range' p.stop (length - p.stop),
        (p :: patches).all (spares offset) = patches.all (spares offset) := by
      intro offset hoffset
      have := List.mem_range'_1.1 hoffset
      have hspares : spares offset p = true := by
        simp only [spares, Bool.or_eq_true, decide_eq_true_eq]
        omega
      rw [List.all_cons, hspares, Bool.true_and]
    rw [range'_append_range' (b := p.start) (by omega) (by omega),
      range'_append_range' (a := p.start) (b := p.stop) (by omega) (by omega), List.filter_append,
      List.filter_append, List.filter_eq_self.2 hkept, List.filter_eq_nil_iff.2 hgone,
      List.filter_congr hlater, ← ih (by omega), originsFrom, List.filterMap_append,
      List.filterMap_append]
    simp [List.filterMap_map]

/-- **The bytes that are kept** are those outside the ranges of the patches, in their old order. -/
theorem filterMap_origins (h : applyAll source patches = .ok output) :
    (origins source patches).filterMap id
      = (List.range (byteLength source)).filter fun offset => patches.all (spares offset) := by
  rw [origins, (applyAll_eq_ok_iff.1 h).filterMap_originsFrom (Nat.zero_add _), List.range_eq_range',
    Nat.sub_zero]
  refine List.filter_congr fun offset _ => Bool.eq_iff_iff.2 ?_
  simp only [List.all_eq_true, mem_inOrder]

/-- **Patching is splicing.** The patches can be applied exactly if each has a range of the text and,
in the stable order by where they start and then by where they end, each begins where the one before
it ends or behind that. The text is then what comes of putting them in one at a time from the last of
them to the first, and its bytes are those outside the ranges, in their old order, and those the
patches bring. Otherwise the error is that of the first patch in this order that is at fault. A list
in which the patches of one range follow each other as here makes the same of every text. -/
theorem applyAll_eq_splicing (source : Text) (patches : List Patch) :
    (Reordered (inOrder patches) patches ∧ (inOrder patches).Pairwise fun p q =>
      p.start < q.start ∨ p.start = q.start ∧ p.stop ≤ q.stop) ∧
    ((∃ output, applyAll source patches = .ok output) ↔ (∀ p ∈ patches, p.Fits source) ∧
      (inOrder patches).IsChain fun p q => p.stop ≤ q.start) ∧
    (∀ output, applyAll source patches = .ok output →
      output = (inOrder patches).foldr splice source ∧
      List.Forall₂ (IsFrom source) (bytes output) (origins source patches) ∧
      (origins source patches).filterMap id
        = (List.range (byteLength source)).filter fun offset => patches.all (spares offset)) ∧
    (∀ error, applyAll source patches = .error error ↔ ∃ done p later,
      inOrder patches = done ++ p :: later ∧ (∀ q ∈ done, q.Fits source) ∧
      (done.IsChain fun p q => p.stop ≤ q.start) ∧ Fault source (lastStop 0 done) p error) ∧
    ∀ others, Reordered patches others → applyAll source others = applyAll source patches := by
  refine ⟨⟨reordered_inOrder patches, ?_⟩, ⟨?_, ?_⟩, fun output h => ?_, fun error => ?_,
    fun others h => ?_⟩
  · refine (List.pairwise_mergeSort before_trans before_total patches).imp fun {p q} h => ?_
    simpa only [before, Bool.or_eq_true, decide_eq_true_eq, Bool.and_eq_true, beq_iff_eq] using h
  · rintro ⟨output, h⟩
    have happlicable := (applyAll_ok_iff.1 h).1
    exact ⟨fun p hp => happlicable.fits p (mem_inOrder.2 hp), happlicable.chain⟩
  · rintro ⟨hfits, hchain⟩
    exact ⟨_, applyAll_ok_iff.2 ⟨⟨fun p hp => hfits p (mem_inOrder.1 hp), hchain⟩, rfl⟩⟩
  · exact ⟨(applyAll_ok_iff.1 h).2.symm, forall₂_origins h, filterMap_origins h⟩
  · rw [applyAll_error_iff]
    constructor
    · rintro ⟨done, p, later, hlist, hdone, hfault⟩
      exact ⟨done, p, later, hlist, hdone.fits, hdone.chain, hfault⟩
    · rintro ⟨done, p, later, hlist, hfits, hchain, hfault⟩
      exact ⟨done, p, later, hlist, ⟨hfits, hchain⟩, hfault⟩
  · rw [applyAll, applyAll, inOrder_eq_of_reordered h]

/-- Two insertions at one offset and a replacement that begins there, given in two orders. -/
theorem applyAll_eq_splicing_insertions :
    let patches : List Patch := [⟨1, 3, ['x']⟩, insertion 1 ['y'], insertion 1 ['z']]
    let others : List Patch := [insertion 1 ['y'], insertion 1 ['z'], ⟨1, 3, ['x']⟩]
    Reordered patches others ∧ applyAll ['a', 'é', 'b'] others = applyAll ['a', 'é', 'b'] patches ∧
      applyAll ['a', 'é', 'b'] others = .ok ['a', 'y', 'z', 'x', 'b'] := by
  intro patches others
  have hreordered : Reordered patches others := by decide
  have hsorted : inOrder others = others := List.mergeSort_of_pairwise (by decide)
  refine ⟨hreordered, (applyAll_eq_splicing ['a', 'é', 'b'] patches).2.2.2.2 others hreordered, ?_⟩
  rw [applyAll, hsorted]
  decide

end ApplyAll

end Patch

end Retouch
