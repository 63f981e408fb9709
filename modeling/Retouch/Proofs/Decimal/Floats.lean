import Retouch.Proofs.Json.RoundTrip

/-!
# Literals of floats

The literal of a float can be spelt (`spelt_ofFloat`): it has digits on both sides of its point, and
the first of them is no zero that others follow. For that, the digits of a float have to make a number
that is not zero unless the float is zero (`exponent_shortest`).
-/

namespace Retouch

namespace Decimal

open Layout (digitsOf)

/-! ## The digits of a float -/

section Interval

variable {i : Interval}

/-- Zero lies in no interval above it. -/
theorem Interval.pos_of_holds (hlow : 0 < i.low) {d : Nat} {k : Int} (h : i.holds d k = true) :
    0 < d := by
  rw [Nat.pos_iff_ne_zero]
  rintro rfl
  have hscaled : 0 < i.low * Nat.pow 10 (-k).toNat := Nat.mul_pos hlow (Nat.pow_pos (by decide))
  unfold holds at h
  dsimp only at h
  rw [Nat.zero_mul] at h
  split at h
  · simp only [Bool.and_eq_true, decide_eq_true_eq] at h
    omega
  · simp only [Bool.and_eq_true, decide_eq_true_eq] at h
    omega

theorem Interval.pos_of_gridPoint? (hlow : 0 < i.low) {tieUp : Bool} {k : Int} {d : Nat}
    (h : i.gridPoint? tieUp k = some d) : 0 < d := by
  unfold gridPoint? at h
  dsimp only at h
  split at h
  · next hbelow habove =>
    have hpos := pos_of_holds hlow hbelow
    have hpos' := pos_of_holds hlow habove
    split at h
    · exact Option.some.inj h ▸ hpos
    · split at h
      · exact Option.some.inj h ▸ hpos'
      · split at h
        · exact Option.some.inj h ▸ hpos'
        · exact Option.some.inj h ▸ hpos
  · next hbelow _ => exact Option.some.inj h ▸ pos_of_holds hlow hbelow
  · next _ habove => exact Option.some.inj h ▸ pos_of_holds hlow habove
  · cases h

theorem digits_stripZeros_pos {d : Decimal} (h : 0 < d.digits) (fuel : Nat) :
    0 < (stripZeros fuel d).digits := by
  induction fuel generalizing d with
  | zero => exact h
  | succ fuel ih =>
    rw [stripZeros]
    split
    · next hzero =>
      simp only [Bool.and_eq_true, beq_iff_eq, bne_iff_ne] at hzero
      exact ih (by dsimp only; omega)
    · exact h

/-- Digits that make zero stand for zero itself. -/
theorem Interval.exponent_shortestFrom (hlow : 0 < i.low) (tieUp : Bool) (fuel count : Nat)
    (h : (i.shortestFrom tieUp fuel count).digits = 0) :
    (i.shortestFrom tieUp fuel count).exponent = 0 := by
  induction fuel generalizing count with
  | zero => rfl
  | succ fuel ih =>
    rw [shortestFrom] at h ⊢
    split at h
    · next d hd =>
      have hpos := digits_stripZeros_pos (d := ⟨d, i.magnitude - (count : Int) + 1⟩)
        (pos_of_gridPoint? hlow hd) 20
      omega
    · exact ih _ h

theorem Interval.low_around_pos {m : Nat} (h : 0 < m) (q : Int) (narrow : Bool) :
    0 < (Interval.around m q narrow).low := by
  refine Nat.mul_pos ?_ (Nat.pow_pos (by decide))
  split <;> omega

end Interval

theorem exponent_shortest (tieUp : Bool) (x : Float) (h : (shortest tieUp x).digits = 0) :
    (shortest tieUp x).exponent = 0 := by
  unfold shortest at h ⊢
  generalize fields x = parts at h ⊢
  obtain ⟨negative, fraction, exponent⟩ := parts
  dsimp only at h ⊢
  split at h
  · next hzero => rw [if_pos hzero]
  · next hzero =>
    rw [if_neg hzero]
    refine Interval.exponent_shortestFrom ?_ tieUp 17 1 h
    split
    · next he =>
      refine Interval.low_around_pos ?_ _ _
      simp only [Bool.and_eq_true, beq_iff_eq] at hzero he
      omega
    · exact Interval.low_around_pos (Nat.add_pos_right _ (Nat.pow_pos (by decide))) _ _

/-! ## Their literals -/

/-- The digits of a number are those of a literal: a zero alone, or a first digit that is none. -/
theorem eq_zero_or_exists_digitsOf (n : Nat) :
    n = 0 ∨ ∃ d rest, digitsOf n = d :: rest ∧ d ≠ 0 := by
  by_cases h : n = 0
  · exact .inl h
  · exact .inr (exists_digitsOf_eq_cons h)

/-- A decimal that is written out in full can be spelt, unless it is a zero with an exponent. -/
theorem spelt_positionalLiteral (layout : Layout) (negative : Bool) {d : Decimal}
    (h : d.digits = 0 → d.exponent = 0) : (layout.positionalLiteral negative d).Spelt := by
  refine ⟨?_, fun digit hd => lt_of_mem_positionalLiteral (.inl hd), fun digits hdigits => ⟨?_, ?_⟩⟩
  · unfold Layout.positionalLiteral
    dsimp only
    split
    · rcases eq_zero_or_exists_digitsOf d.digits with hzero | ⟨first, rest, hdigits, hfirst⟩
      · rw [hzero, h hzero]
        exact .inl rfl
      · rw [hdigits]
        exact .inr ⟨first, rest ++ List.replicate d.exponent.toNat 0, rfl, hfirst⟩
    · next hnegative =>
      split
      · next hpoint =>
        have hne : d.digits ≠ 0 := fun hzero => by have := h hzero; omega
        obtain ⟨first, rest, hdigits, hfirst⟩ := exists_digitsOf_eq_cons hne
        obtain ⟨count, hcount⟩ : ∃ count,
            (((digitsOf d.digits).length : Int) + d.exponent).toNat = count + 1 :=
          ⟨(((digitsOf d.digits).length : Int) + d.exponent).toNat - 1, by omega⟩
        rw [hcount, hdigits]
        exact .inr ⟨first, rest.take count, rfl, hfirst⟩
      · exact .inl rfl
  · unfold Layout.positionalLiteral at hdigits
    dsimp only at hdigits
    split at hdigits
    · split at hdigits
      · exact Option.some.inj hdigits ▸ List.cons_ne_nil 0 []
      · cases hdigits
    · split at hdigits
      · next hnegative hpoint =>
        rintro rfl
        have hlength := congrArg List.length (Option.some.inj hdigits)
        rw [List.length_drop, List.length_nil] at hlength
        omega
      · rintro rfl
        have hnil := (List.append_eq_nil_iff.1 (Option.some.inj hdigits)).2
        exact digitsOf_ne_nil _ hnil
  · intro digit hdigit
    have hmem : digit ∈ (layout.positionalLiteral negative d).fraction.getD [] := by
      rw [hdigits]
      exact hdigit
    exact lt_of_mem_positionalLiteral (.inr hmem)

/-- A decimal that is written with an exponent can be spelt, unless it is zero. -/
theorem spelt_scientificLiteral (negative : Bool) {d : Decimal} (h : d.digits ≠ 0) :
    (Layout.scientificLiteral negative d).Spelt := by
  obtain ⟨first, rest, hdigits, hfirst⟩ := exists_digitsOf_eq_cons h
  unfold Layout.scientificLiteral
  dsimp only
  refine ⟨.inr ⟨first, [], ?_, hfirst⟩, fun digit hd => ?_, fun digits hfraction => ?_⟩
  · rw [hdigits]
    rfl
  · exact lt_of_mem_digitsOf (List.mem_of_mem_take hd)
  · dsimp only at hfraction
    split at hfraction
    · cases hfraction
    · next hlength =>
      obtain rfl := Option.some.inj hfraction
      refine ⟨fun hnil => ?_, fun digit hd => lt_of_mem_digitsOf (List.mem_of_mem_drop hd)⟩
      have := congrArg List.length hnil
      rw [List.length_drop, List.length_nil] at this
      omega

theorem spelt_ofDecimal (layout : Layout) (negative : Bool) {d : Decimal}
    (h : d.digits = 0 → d.exponent = 0) : (layout.ofDecimal negative d).Spelt := by
  unfold Layout.ofDecimal
  split
  · exact spelt_positionalLiteral layout negative h
  · dsimp only
    split
    · exact spelt_positionalLiteral layout negative h
    · next hscientific =>
      refine spelt_scientificLiteral negative fun hzero => hscientific ?_
      rw [hzero]
      rfl

theorem spelt_of_literal? {layout : Layout} {x : Float} {l : Literal}
    (h : layout.literal? x = some l) : l.Spelt := by
  unfold Layout.literal? at h
  dsimp only at h
  split at h
  · cases h
  · obtain rfl := Option.some.inj h
    exact spelt_ofDecimal layout _ (exponent_shortest layout.tieUp x)

end Decimal

namespace Json

/-- **The value of a float can be spelt.** -/
theorem spelt_ofFloat (x : Float) : (ofFloat x).Spelt := by
  unfold ofFloat
  split
  · next l hl => exact Decimal.spelt_of_literal? hl
  · trivial

/-- A float is no array and no object. -/
theorem depth_ofFloat (x : Float) : (ofFloat x).depth = 0 := by
  unfold ofFloat
  split <;> rfl

end Json

end Retouch
