import Mathlib.Data.List.Forall2
import Retouch.Patch

/-!
# Where the bytes of a patched text come from

Patches make a new text of an old one. Each byte of the new text is either a byte of the old text
that was kept or a byte that a patch has brought; `Patch.origins` says which, byte by byte, and
`Patch.image` looks up where a byte of the old text is now.

* `forall₂_origins`: `origins` tells the truth about `Patch.applyAll`. The new text has one byte for
  each entry, and where the entry names an offset the byte is the one at that offset of the old text.
* `follow_eq_image`: `Patch.follow`, which adds up how much each patch lengthens the text, leads
  every byte to where it really is, provided that the new text fits in 64-bit offsets.
-/

namespace Retouch

open Text

/-! ## Bytes of texts -/

namespace Text

/-- The bytes of a text. -/
def bytes (t : Text) : List UInt8 := t.flatMap String.utf8EncodeChar

@[simp] theorem bytes_append (s t : Text) : bytes (s ++ t) = bytes s ++ bytes t := by
  simp [bytes]

@[simp] theorem length_bytes (t : Text) : (bytes t).length = byteLength t := by
  induction t with
  | nil => rfl
  | cons c t ih =>
    rw [byteLength_cons, ← ih]
    simp [bytes, String.length_utf8EncodeChar]

/-- Only the empty text has no bytes. -/
theorem eq_nil_of_byteLength_eq_zero {t : Text} (h : byteLength t = 0) : t = [] := by
  cases t with
  | nil => rfl
  | cons c t =>
    have := c.utf8Size_pos
    rw [byteLength_cons] at h
    omega

/-- Of two first parts of a text the shorter one begins the longer one. -/
theorem exists_eq_append_of_byteLength_le {a b c d : Text} (h : a ++ b = c ++ d)
    (hle : byteLength a ≤ byteLength c) : ∃ m, c = a ++ m ∧ b = m ++ d := by
  rcases List.append_eq_append_iff.1 h with ⟨m, hc, hb⟩ | ⟨m, ha, hd⟩
  · exact ⟨m, hc, hb⟩
  · have hm : m = [] := by
      refine eq_nil_of_byteLength_eq_zero ?_
      rw [ha, byteLength_append] at hle
      omega
    subst hm
    exact ⟨[], by simpa using ha.symm, by simpa using hd.symm⟩

/-- Two ways to cut a text at one offset are one way. -/
theorem append_inj_of_byteLength_eq {a b c d : Text} (h : a ++ b = c ++ d)
    (hlength : byteLength a = byteLength c) : a = c ∧ b = d := by
  obtain ⟨m, rfl, rfl⟩ := exists_eq_append_of_byteLength_le h (Nat.le_of_eq hlength)
  have hm : m = [] := eq_nil_of_byteLength_eq_zero (by
    rw [byteLength_append] at hlength
    omega)
  subst hm
  simp

end Text

namespace Patch

/-! ## What it takes to apply patches -/

/-- **One step of weaving.** If a patch and those behind it can be applied to the rest of a text from
`cursor` on, the rest falls into a part that is kept, the part that the patch replaces and a part
for the other patches. -/
theorem weave_cons_eq_ok {source before rest output : Text} {cursor : Nat} {p : Patch}
    {patches : List Patch} (hsource : before ++ rest = source) (hcursor : byteLength before = cursor)
    (h : weave source cursor rest (p :: patches) = .ok output) :
    ∃ kept replaced behind woven, rest = kept ++ (replaced ++ behind) ∧
      cursor + byteLength kept = p.start ∧ p.start + byteLength replaced = p.stop ∧
      weave source p.stop behind patches = .ok woven ∧ output = kept ++ p.text ++ woven := by
  rw [weave] at h
  split at h
  · cases h
  · next hbounds =>
    split at h
    · cases h
    · next hboundary =>
      split at h
      · cases h
      · next hcut =>
        have hstart : isBoundary source p.start = true := by
          cases hb : isBoundary source p.start <;> simp_all
        have hstop : isBoundary source p.stop = true := by
          cases hb : isBoundary source p.stop <;> simp_all
        obtain ⟨toStart, fromStart, hs, hslen⟩ := isBoundary_iff.1 hstart
        obtain ⟨toStop, fromStop, ht, htlen⟩ := isBoundary_iff.1 hstop
        obtain ⟨kept, hkept, hrest⟩ := exists_eq_append_of_byteLength_le
          (hsource.trans hs.symm) (by omega)
        obtain ⟨replaced, hreplaced, hbehind⟩ := exists_eq_append_of_byteLength_le
          (hs.trans ht.symm) (by omega)
        have hkeptLength : byteLength kept = p.start - cursor := by
          have := congrArg byteLength hkept
          rw [byteLength_append] at this
          omega
        have hreplacedLength : byteLength replaced = p.stop - p.start := by
          have := congrArg byteLength hreplaced
          rw [byteLength_append] at this
          omega
        subst hbehind
        rw [hrest, ← hkeptLength, splitAt?_append] at h
        simp only [Option.getD_some] at h
        rw [← hreplacedLength, splitAt?_append] at h
        simp only [Option.getD_some] at h
        cases hw : weave source p.stop fromStop patches with
        | error cause => rw [hw] at h; cases h
        | ok woven =>
          rw [hw] at h
          refine ⟨kept, replaced, fromStop, woven, hrest, by omega, by omega, hw, ?_⟩
          exact (Except.ok.inj h).symm

/-! ## Origins -/

/-- For each byte of what patches in order make of the bytes `[cursor, length)`: the offset of the
byte that it was, none for a byte that a patch brings. -/
def originsFrom (length : Nat) : (cursor : Nat) → List Patch → List (Option Nat)
  | cursor, [] => (List.range' cursor (length - cursor)).map some
  | cursor, p :: patches =>
    (List.range' cursor (p.start - cursor)).map some
      ++ (List.replicate (byteLength p.text) none ++ originsFrom length p.stop patches)

/-- For each byte of what patches make of a text: the offset of the byte that it was. -/
def origins (source : Text) (patches : List Patch) : List (Option Nat) :=
  originsFrom (byteLength source) 0 (inOrder patches)

/-- Where the byte at an offset of a text is after patches, none if it is gone. -/
def image (source : Text) (patches : List Patch) (offset : Nat) : Option Nat :=
  (origins source patches).idxOf? (some offset)

/-- Whether a byte of a new text can have an origin: if that is an offset, it is the byte of the old
text there. -/
def IsFrom (source : Text) (byte : UInt8) (origin : Option Nat) : Prop :=
  ∀ offset, origin = some offset → (bytes source)[offset]? = some byte

/-- The bytes of a part of a text come from the offsets where the part stands. -/
theorem forall₂_range' {source before part after : Text} (h : before ++ (part ++ after) = source) :
    List.Forall₂ (IsFrom source) (bytes part)
      ((List.range' (byteLength before) (byteLength part)).map some) := by
  refine List.forall₂_iff_get.2 ⟨by simp, ?_⟩
  intro i hbyte horigin offset hoffset
  have hi : i < byteLength part := by simpa using hbyte
  have hat : offset = byteLength before + i := by simpa [eq_comm] using hoffset
  subst hat
  rw [← h, bytes_append, bytes_append, List.getElem?_append_right (by simp),
    List.getElem?_append_left (by simpa using hi)]
  simp

/-- Bytes without an origin can be any. -/
theorem forall₂_replicate_none (source part : Text) :
    List.Forall₂ (IsFrom source) (bytes part) (List.replicate (byteLength part) none) := by
  refine List.forall₂_iff_get.2 ⟨by simp, ?_⟩
  intro i _ _ offset hoffset
  simp at hoffset

/-- `originsFrom` is right about what `weave` makes. -/
theorem forall₂_originsFrom (before : Text) {source rest output : Text} {cursor : Nat}
    {patches : List Patch} (hsource : before ++ rest = source)
    (hcursor : byteLength before = cursor) (h : weave source cursor rest patches = .ok output) :
    List.Forall₂ (IsFrom source) (bytes output)
      (originsFrom (byteLength source) cursor patches) := by
  induction patches generalizing before cursor rest output with
  | nil =>
    rw [weave] at h
    obtain rfl := Except.ok.inj h
    have hlength : byteLength source - cursor = byteLength rest := by
      rw [← hsource, byteLength_append]
      omega
    rw [originsFrom, hlength, ← hcursor]
    simpa using forall₂_range' (show before ++ (rest ++ []) = source by simpa using hsource)
  | cons p patches ih =>
    obtain ⟨kept, replaced, behind, woven, rfl, hkept, hreplaced, hwoven, rfl⟩ :=
      weave_cons_eq_ok hsource hcursor h
    have hlength : p.start - cursor = byteLength kept := by omega
    rw [originsFrom, hlength, bytes_append, bytes_append, List.append_assoc, ← hcursor]
    refine List.rel_append (forall₂_range' hsource) (List.rel_append (forall₂_replicate_none _ _) ?_)
    refine ih (before ++ (kept ++ replaced)) ?_ ?_ hwoven
    · simpa using hsource
    · simp only [byteLength_append]
      omega

/-- **Origins are true.** The text that patches make of another has one byte for each origin, and a
byte whose origin is an offset is the byte of the old text there. -/
theorem forall₂_origins {source output : Text} {patches : List Patch}
    (h : applyAll source patches = .ok output) :
    List.Forall₂ (IsFrom source) (bytes output) (origins source patches) :=
  forall₂_originsFrom [] rfl rfl h

/-- A byte that is still there is the same byte, at an offset within the new text. -/
theorem getElem?_of_image {source output : Text} {patches : List Patch} {offset now : Nat}
    (h : applyAll source patches = .ok output) (himage : image source patches offset = some now) :
    now < byteLength output ∧ (bytes output)[now]? = (bytes source)[offset]? := by
  have htrue := forall₂_origins h
  obtain ⟨hlt, hat, -⟩ := List.idxOf?_eq_some_iff.1 himage
  have hbyte : now < (bytes output).length := htrue.length_eq ▸ hlt
  have hfrom := htrue.get hbyte hlt offset (by simpa using hat)
  refine ⟨by simpa using hbyte, ?_⟩
  rw [hfrom, List.getElem?_eq_getElem hbyte]
  rfl

/-! ## Following offsets -/

/-- The sum that `follow` adds does not depend on the order of the patches. -/
theorem shiftAt_perm {patches others : List Patch} (h : patches.Perm others) (offset : Nat) :
    shiftAt offset patches = shiftAt offset others := by
  induction h with
  | nil => rfl
  | cons p _ ih => rw [shiftAt, shiftAt, ih]
  | swap p q rest =>
    by_cases hp : p.start < p.stop ∧ p.start ≤ offset ∧ offset < p.stop
    · by_cases hq : q.start < q.stop ∧ q.start ≤ offset ∧ offset < q.stop <;>
        simp [shiftAt, hp, hq]
    · by_cases hq : q.start < q.stop ∧ q.start ≤ offset ∧ offset < q.stop
      · simp [shiftAt, hp, hq]
      · rw [shiftAt, shiftAt, shiftAt, shiftAt, if_neg hp, if_neg hq, if_neg hp, if_neg hq,
          Option.map_map, Option.map_map]
        congr 1
        funext shift
        simp only [Function.comp_apply]
        split <;> split <;> omega
  | trans _ _ ih₁ ih₂ => rw [ih₁, ih₂]

/-- A patch that begins behind an offset does not move it. -/
theorem shiftAt_eq_zero {offset : Nat} {patches : List Patch}
    (h : ∀ p ∈ patches, offset < p.start ∧ p.start ≤ p.stop) : shiftAt offset patches = some 0 := by
  induction patches with
  | nil => rfl
  | cons p patches ih =>
    obtain ⟨hstart, hstop⟩ := h p (by simp)
    rw [shiftAt, if_neg (by omega), ih fun q hq => h q (by simp [hq])]
    simp only [Option.map_some, Option.some.injEq]
    rw [if_neg (by omega)]

/-- Patches that can be woven in from a cursor on all begin there or behind it. -/
theorem le_start_of_weave (before : Text) {source rest output : Text} {cursor : Nat}
    {patches : List Patch} (hsource : before ++ rest = source)
    (hcursor : byteLength before = cursor) (h : weave source cursor rest patches = .ok output) :
    ∀ p ∈ patches, cursor ≤ p.start ∧ p.start ≤ p.stop := by
  induction patches generalizing before cursor rest output with
  | nil => simp
  | cons p patches ih =>
    obtain ⟨kept, replaced, behind, woven, rfl, hkept, hreplaced, hwoven, -⟩ :=
      weave_cons_eq_ok hsource hcursor h
    have hrest := ih (before ++ (kept ++ replaced)) (by simpa using hsource)
      (by simp only [byteLength_append]; omega) hwoven
    intro q hq
    rcases List.mem_cons.1 hq with rfl | hq
    · omega
    · have := hrest q hq
      omega

/-- What is left of a text behind a cursor holds no byte from before it. -/
theorem le_of_mem_originsFrom (before : Text) {source rest output : Text} {cursor offset : Nat}
    {patches : List Patch} (hsource : before ++ rest = source)
    (hcursor : byteLength before = cursor) (h : weave source cursor rest patches = .ok output)
    (hmem : some offset ∈ originsFrom (byteLength source) cursor patches) : cursor ≤ offset := by
  induction patches generalizing before cursor rest output with
  | nil =>
    rw [originsFrom] at hmem
    obtain ⟨k, hk, hat⟩ := List.mem_map.1 hmem
    obtain rfl := Option.some.inj hat
    exact (List.mem_range'_1.1 hk).1
  | cons p patches ih =>
    obtain ⟨kept, replaced, behind, woven, rfl, hkept, hreplaced, hwoven, -⟩ :=
      weave_cons_eq_ok hsource hcursor h
    rw [originsFrom] at hmem
    rcases List.mem_append.1 hmem with hmem | hmem
    · obtain ⟨k, hk, hat⟩ := List.mem_map.1 hmem
      obtain rfl := Option.some.inj hat
      exact (List.mem_range'_1.1 hk).1
    · rcases List.mem_append.1 hmem with hmem | hmem
      · simp at hmem
      · have := ih (before ++ (kept ++ replaced)) (by simpa using hsource)
          (by simp only [byteLength_append]; omega) hwoven hmem
        omega

/-- An offset among the offsets `[cursor, cursor + n)` stands at its distance from `cursor`. -/
theorem idxOf?_range' (cursor n offset : Nat) :
    ((List.range' cursor n).map some).idxOf? (some offset)
      = if cursor ≤ offset ∧ offset < cursor + n then some (offset - cursor) else none := by
  split
  · next h =>
    refine List.idxOf?_eq_some_iff.2 ⟨by simp; omega, by simp; omega, ?_⟩
    intro j hj
    simp
    omega
  · next h =>
    refine List.idxOf?_eq_none_iff.2 ?_
    intro hmem
    obtain ⟨k, hk, hat⟩ := List.mem_map.1 hmem
    obtain rfl := Option.some.inj hat
    have := List.mem_range'_1.1 hk
    omega

/-- The first place of an offset in two lists, one behind the other. -/
theorem idxOf?_append (xs ys : List (Option Nat)) (a : Option Nat) :
    (xs ++ ys).idxOf? a = (xs.idxOf? a).or ((ys.idxOf? a).map (· + xs.length)) := by
  simp [List.idxOf?, List.findIdx?_append]

/-- Where a byte behind the cursor is among the origins: as far from the cursor as before, moved by
the growth of the patches before it. -/
theorem idxOf?_originsFrom (before : Text) {source rest output : Text} {cursor offset : Nat}
    {patches : List Patch} (hsource : before ++ rest = source)
    (hcursor : byteLength before = cursor) (h : weave source cursor rest patches = .ok output)
    (hle : cursor ≤ offset) (hlt : offset < byteLength source) :
    ((originsFrom (byteLength source) cursor patches).idxOf? (some offset)).map Int.ofNat
      = (shiftAt offset patches).map fun shift => (offset : Int) - cursor + shift := by
  induction patches generalizing before cursor rest output with
  | nil =>
    rw [originsFrom, idxOf?_range', if_pos (by omega), shiftAt]
    simp only [Option.map_some, Option.some.injEq, Int.ofNat_eq_natCast]
    omega
  | cons p patches ih =>
    obtain ⟨kept, replaced, behind, woven, rfl, hkept, hreplaced, hwoven, -⟩ :=
      weave_cons_eq_ok hsource hcursor h
    have hsource' : (before ++ (kept ++ replaced)) ++ behind = source := by simpa using hsource
    have hcursor' : byteLength (before ++ (kept ++ replaced)) = p.stop := by
      simp only [byteLength_append]
      omega
    rw [originsFrom, idxOf?_append, idxOf?_append, idxOf?_range']
    have hnone : (List.replicate (byteLength p.text) (none : Option Nat)).idxOf? (some offset)
        = none := by
      simp [List.idxOf?_eq_none_iff]
    rw [hnone, Option.none_or]
    by_cases hbefore : offset < p.start
    · -- kept before the patch: no later patch reaches back to it
      have hlater := le_start_of_weave _ hsource' hcursor' hwoven
      have hzero : shiftAt offset patches = some 0 :=
        shiftAt_eq_zero fun q hq => ⟨by have := hlater q hq; omega, (hlater q hq).2⟩
      rw [if_pos (by omega), Option.some_or, shiftAt, if_neg (by omega), hzero]
      simp only [Option.map_some, Option.some.injEq, Int.ofNat_eq_natCast]
      rw [if_neg (by omega)]
      omega
    · rw [if_neg (by omega), Option.none_or]
      by_cases hcovered : offset < p.stop
      · -- replaced: what is left of the text begins behind it
        rw [shiftAt, if_pos (by omega)]
        have hgone : (originsFrom (byteLength source) p.stop patches).idxOf? (some offset)
            = none := by
          refine List.idxOf?_eq_none_iff.2 fun hmem => ?_
          exact absurd (le_of_mem_originsFrom _ hsource' hcursor' hwoven hmem) (by omega)
        rw [hgone]
        rfl
      · have hih := ih _ hsource' hcursor' hwoven (by omega)
        rw [shiftAt, if_neg (by omega)]
        simp only [show p.stop ≤ offset by omega, if_true]
        cases hs : shiftAt offset patches with
        | none =>
          rw [hs] at hih
          rw [Option.map_eq_none_iff.1 hih]
          rfl
        | some shift =>
          rw [hs] at hih
          obtain ⟨i, hi, hat⟩ := Option.map_eq_some_iff.1 hih
          rw [hi]
          simp only [Option.map_some, Option.some.injEq, Int.ofNat_eq_natCast,
            List.length_replicate, List.length_map, List.length_range', growth] at hat ⊢
          omega

/-- **Offsets are followed to where their bytes are.** `follow` finds each byte of a text in the text
that patches make of it, and finds none exactly when the byte is gone. -/
theorem follow_eq_image {source output : Text} {patches : List Patch} {offset : Nat}
    (h : applyAll source patches = .ok output) (hlt : offset < byteLength source)
    (hfit : byteLength output ≤ offsetLimit) : follow patches offset = image source patches offset := by
  have hwhere : (image source patches offset).map Int.ofNat
      = (shiftAt offset patches).map fun shift => (offset : Int) - (0 : Nat) + shift := by
    rw [← shiftAt_perm (List.mergeSort_perm patches before) offset]
    exact idxOf?_originsFrom [] rfl rfl h (Nat.zero_le offset) hlt
  unfold follow
  cases hs : shiftAt offset patches with
  | none =>
    rw [hs] at hwhere
    exact (Option.map_eq_none_iff.1 hwhere).symm
  | some shift =>
    rw [hs] at hwhere
    obtain ⟨now, himage, hat⟩ := Option.map_eq_some_iff.1 hwhere
    have hinside := (getElem?_of_image h himage).1
    rw [himage]
    simp only [Option.map_some, Option.some.injEq, Int.ofNat_eq_natCast] at hat ⊢
    unfold offsetLimit at hfit ⊢
    omega

end Patch

end Retouch
