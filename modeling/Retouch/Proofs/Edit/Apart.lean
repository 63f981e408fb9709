import Mathlib.Data.List.Permutation
import Retouch.Proofs.Edit.Batch
import Retouch.Proofs.Edit.Element

/-!
# Edits of separate elements

A batch whose edits name separate elements writes the same text in every order, as long as each edit
leaves the elements of the others as they are. The main statement is `applyBatch_of_undisturbed`: the
batch then writes what the patches of all its edits make of the source at once, and skips exactly the
edits that ask for something that cannot be written.

* `Separate` - the elements of two edits, neither of which holds the other.
* `StillRead` - what some edits leave of the elements of the others.
* `Undisturbed` - a batch of which any edits leave the elements of the others.

That an edit leaves the other elements is not checked and does not always hold. The end of a
self-closing tag is cut off by its spelling, so a tag that ends with a slash, a blank and the sign `>`
keeps its end when it is expanded, and then stands for more of the source than before. Which of two edits
is made first can decide whether the other one is made (`exists_order_matters`).
-/

namespace Retouch

open Text

/-! ## What an edit asks for -/

/-- Why an edit cannot be written into any element, if it cannot. -/
def PendingEdit.refusal : PendingEdit → Option EditError
  | .text _ => none
  | .style edit =>
    match edit.expression with
    | .error cause => some (.invalidStyle cause)
    | .ok _ =>
      match edit.target with
      | .error name => some (.invalidTag name)
      | .ok _ => none

theorem patches_of_refusal {edit : PendingEdit} {reason : EditError} (h : edit.refusal = some reason)
    (site : Site) (source : Text) : site.patches source edit = .error reason := by
  cases edit with
  | text edit => cases h
  | style edit =>
    unfold PendingEdit.refusal at h
    unfold Site.patches
    dsimp only at h ⊢
    cases hexpression : edit.expression with
    | error cause =>
      rw [hexpression] at h
      exact congrArg Except.error (Option.some.inj h)
    | ok value =>
      rw [hexpression] at h
      dsimp only at h ⊢
      cases htarget : edit.target with
      | error name =>
        rw [htarget] at h
        exact congrArg Except.error (Option.some.inj h)
      | ok target =>
        rw [htarget] at h
        cases h

theorem exists_patches_of_refusal {edit : PendingEdit} (h : edit.refusal = none) (site : Site)
    (source : Text) : ∃ own, site.patches source edit = .ok own := by
  cases edit with
  | text edit => exact ⟨_, rfl⟩
  | style edit =>
    unfold PendingEdit.refusal at h
    unfold Site.patches
    dsimp only at h ⊢
    cases hexpression : edit.expression with
    | error cause =>
      rw [hexpression] at h
      cases h
    | ok value =>
      rw [hexpression] at h
      dsimp only at h ⊢
      cases htarget : edit.target with
      | error name =>
        rw [htarget] at h
        cases h
      | ok target => exact ⟨_, rfl⟩

/-- The edit with the reason, if it cannot be written. -/
def PendingEdit.refused? (edit : PendingEdit) : Option SkippedEdit := edit.refusal.map (⟨edit, ·⟩)

/-- The patches of an edit in the source that it is made for. -/
def ownPatches (source : Text) (found : List Site) (edit : PendingEdit) : List Patch :=
  match findSite found edit.address with
  | none => []
  | some site => (site.patches source edit).toOption.getD []

theorem ownPatches_of_refusal {edit : PendingEdit} {reason : EditError}
    (h : edit.refusal = some reason) (source : Text) (found : List Site) :
    ownPatches source found edit = [] := by
  unfold ownPatches
  split
  · rfl
  · rw [patches_of_refusal h]
    rfl

/-! ## Separate elements -/

/-- Whether an element is another one or holds it. -/
def Site.Contains (site other : Site) : Prop :=
  site.tag.span.start ≤ other.tag.span.start ∧ other.tag.span.stop ≤ site.tag.span.stop

/-- Whether two edits name two elements of which neither holds the other. -/
def Separate (found : List Site) (edit other : PendingEdit) : Prop :=
  ∀ site site', findSite found edit.address = some site → findSite found other.address = some site' →
    ¬ site.Contains site' ∧ ¬ site'.Contains site

theorem Separate.symm {found : List Site} {edit other : PendingEdit}
    (h : Separate found edit other) : Separate found other edit :=
  fun site site' hsite hsite' => (h site' site hsite' hsite).symm

/-- What is left of other elements where some edits have been made at once: the source can be read, and
the element of each other edit stands where its first byte has been carried, with tags of the same
shape. -/
def StillRead (dialect : Dialect) (source : Text) (found : List Site) (made others : List PendingEdit) :
    Prop :=
  ∀ text ∈ (Patch.applyAll source (made.flatMap (ownPatches source found))).toOption,
    byteLength text ≤ Patch.offsetLimit ∧
      ∃ now ∈ (sites dialect text).toOption, ∀ edit ∈ others,
        ∀ site ∈ findSite found edit.address, ∃ again ∈ now,
          Patch.image source (made.flatMap (ownPatches source found)) site.anchor = some again.anchor ∧
            again.tag.shape = site.tag.shape

instance (dialect : Dialect) (source : Text) (found : List Site) (made others : List PendingEdit) :
    Decidable (StillRead dialect source found made others) :=
  inferInstanceAs (Decidable (∀ text ∈ (Patch.applyAll source _).toOption, _))

/-- Whether any edits of a batch leave the elements of the others as they are. -/
def Undisturbed (dialect : Dialect) (source : Text) (found : List Site) (edits : List PendingEdit) :
    Prop :=
  ∀ made others, (made ++ others).Perm edits → StillRead dialect source found made others

section Separate

variable {dialect : Dialect} {source : Text} {found : List Site}

/-- Of two separate elements one ends before the other begins. -/
theorem Separate.disjoint (h : sites dialect source = .ok found) {edit other : PendingEdit}
    (hsep : Separate found edit other) {site site' : Site}
    (hsite : findSite found edit.address = some site)
    (hsite' : findSite found other.address = some site') :
    site.tag.span.stop ≤ site'.tag.span.start ∨ site'.tag.span.stop ≤ site.tag.span.start := by
  obtain ⟨hnot, hnot'⟩ := hsep site site' hsite hsite'
  have hmem := List.mem_of_find?_eq_some hsite
  have hmem' := List.mem_of_find?_eq_some hsite'
  rcases Nat.lt_trichotomy site.anchor site'.anchor with hlt | heq | hgt
  · refine (stop_le_of_lt h hmem hmem' hlt).imp_right fun hin => ?_
    exact absurd ⟨Nat.le_of_lt hlt, hin⟩ hnot
  · obtain rfl := eq_of_anchor_eq h hmem hmem' heq
    exact absurd ⟨Nat.le_refl _, Nat.le_refl _⟩ hnot
  · refine ((stop_le_of_lt h hmem' hmem hgt).imp_right fun hin => ?_).symm
    exact absurd ⟨Nat.le_of_lt hgt, hin⟩ hnot'

/-- The patches of an edit stand in its element. -/
theorem inside_ownPatches (h : sites dialect source = .ok found) {edit : PendingEdit} {site : Site}
    (hsite : findSite found edit.address = some site) :
    Patch.Inside source site.anchor site.tag.span.stop (ownPatches source found edit) := by
  have hmem := List.mem_of_find?_eq_some hsite
  rw [ownPatches, hsite]
  dsimp only
  cases hown : site.patches source edit with
  | error reason => exact Patch.inside_of_within .nil (by simp [Except.toOption])
  | ok own => exact inside_patches (placed_of_sites h hmem) (exists_append_anchor h hmem) hown

/-- Patches belong to elements. -/
theorem exists_of_mem_ownPatches {edit : PendingEdit} {p : Patch}
    (hp : p ∈ ownPatches source found edit) : ∃ site, findSite found edit.address = some site := by
  unfold ownPatches at hp
  split at hp
  · simp at hp
  · next site hsite => exact ⟨site, hsite⟩

/-- A separate element begins outside an element. -/
theorem Separate.anchor_outside (h : sites dialect source = .ok found) {edit other : PendingEdit}
    (hsep : Separate found edit other) {site site' : Site}
    (hsite : findSite found edit.address = some site)
    (hsite' : findSite found other.address = some site') :
    site'.anchor < site.tag.span.start ∨ site.tag.span.stop ≤ site'.anchor := by
  have hdisjoint := hsep.disjoint h hsite hsite'
  have hlt := (placed_of_sites h (List.mem_of_find?_eq_some hsite')).lt_stop
  show site'.tag.span.start < site.tag.span.start ∨ site.tag.span.stop ≤ site'.tag.span.start
  omega

/-- Patches of separate elements stand apart, and behind the elements or before them. -/
theorem Separate.outside (h : sites dialect source = .ok found) {edit other : PendingEdit}
    (hsep : Separate found edit other) {site : Site} (hsite : findSite found edit.address = some site) :
    ∀ p ∈ ownPatches source found other,
      p.stop ≤ site.tag.span.start ∨ site.tag.span.stop < p.start := by
  intro p hp
  obtain ⟨site', hsite'⟩ := exists_of_mem_ownPatches hp
  have hinside := inside_ownPatches h hsite'
  have hbegin : site'.tag.span.start < p.start := hinside.lt_start p hp
  have hend := hinside.stop_le p hp
  have := hsep.disjoint h hsite hsite'
  omega

/-- The patches of separate edits stand apart. -/
theorem pairwise_ownPatches (h : sites dialect source = .ok found) {edits : List PendingEdit}
    (hsep : edits.Pairwise (Separate found)) :
    (edits.flatMap (ownPatches source found)).Pairwise Patch.Apart := by
  refine List.pairwise_flatMap.2 ⟨fun edit _ => ?_, hsep.imp fun {edit other} hpair p hp q hq => ?_⟩
  · cases hsite : findSite found edit.address with
    | none => simp [ownPatches, hsite]
    | some site => exact (inside_ownPatches h hsite).apart
  · obtain ⟨site, hsite⟩ := exists_of_mem_ownPatches hp
    have hinside := inside_ownPatches h hsite
    have hbegin : site.tag.span.start < p.start := hinside.lt_start p hp
    have hforward := hinside.forward p hp
    have hend := hinside.stop_le p hp
    obtain ⟨site', hsite'⟩ := exists_of_mem_ownPatches hq
    have hforward' := (inside_ownPatches h hsite').forward q hq
    simp only [Patch.Apart, Patch.Precedes]
    have := hpair.outside h hsite q hq
    omega

end Separate

/-! ## One edit of a batch -/

/-- An edit with the place to which the patches of the edits made before have carried its element. -/
def Anchored.behind (source : Text) (found : List Site) (made : List PendingEdit) (edit : PendingEdit) :
    Anchored :=
  ⟨edit, (findSite found edit.address).bind fun site =>
    Patch.image source (made.flatMap (ownPatches source found)) site.anchor⟩

section Step

variable {dialect : Dialect} {source text : Text} {found now : List Site}
  {made others : List PendingEdit} {edit : PendingEdit}

/-- The element of an edit is found where it was carried. -/
theorem StillRead.exists_again (hstill : StillRead dialect source found made others)
    (htext : Patch.applyAll source (made.flatMap (ownPatches source found)) = .ok text)
    (hnow : sites dialect text = .ok now) (hedit : edit ∈ others) {site : Site}
    (hsite : findSite found edit.address = some site) :
    ∃ again ∈ now,
      Patch.image source (made.flatMap (ownPatches source found)) site.anchor = some again.anchor ∧
        again.tag.shape = site.tag.shape := by
  obtain ⟨-, now', hnow', hall⟩ := hstill text (mem_toOption.2 htext)
  obtain rfl := Except.ok.inj (hnow.symm.trans (mem_toOption.1 hnow'))
  exact hall edit hedit site hsite

/-- Elements of one shape have one name. -/
theorem name_eq_of_shape_eq (h : sites dialect source = .ok found) (hnow : sites dialect text = .ok now)
    {site again : Site} (hsite : site ∈ found) (hagain : again ∈ now)
    (hshape : again.tag.shape = site.tag.shape) : again.name = site.name := by
  obtain ⟨children, hstands⟩ := exists_stands h hsite
  obtain ⟨children', hstands'⟩ := exists_stands hnow hagain
  have hsame : again.tag.shape.name = site.tag.shape.name := congrArg Tag.name hshape
  have hname : again.tag.name = site.tag.name := hsame
  rw [hstands.name, hstands'.name] at hname
  exact Option.some.inj hname

/-- An edit is attempted where its element was carried. -/
theorem exists_attempt_eq (hstill : StillRead dialect source found made others)
    (htext : Patch.applyAll source (made.flatMap (ownPatches source found)) = .ok text)
    (hnow : sites dialect text = .ok now) (hedit : edit ∈ others) {site : Site}
    (hsite : findSite found edit.address = some site) :
    ∃ again ∈ now,
      Patch.image source (made.flatMap (ownPatches source found)) site.anchor = some again.anchor ∧
        again.tag.shape = site.tag.shape ∧
        (Anchored.behind source found made edit).attempt dialect text now
          = applyAt dialect text again edit := by
  obtain ⟨again, hagain, himage, hshape⟩ := hstill.exists_again htext hnow hedit hsite
  refine ⟨again, hagain, himage, hshape, ?_⟩
  have hanchor : (Anchored.behind source found made edit).anchor = some again.anchor := by
    rw [Anchored.behind, hsite]
    exact himage
  rw [Anchored.attempt, site?_eq_some hnow hagain hanchor]
  rfl

/-- Patches of separate elements leave the text of an element as it is. -/
theorem exists_around_element (h : sites dialect source = .ok found)
    (hsep : (made ++ edit :: others).Pairwise (Separate found)) {site : Site}
    (hsite : findSite found edit.address = some site)
    (htext : Patch.applyAll source (made.flatMap (ownPatches source found)) = .ok text) :
    ∃ l m r lefts rights l' r', source = l ++ (m ++ r) ∧ text = l' ++ (m ++ r') ∧
      Patch.Around l m r (made.flatMap (ownPatches source found)) lefts rights l' r' ∧
      byteLength l = site.anchor ∧ byteLength m = site.tag.shape.span.stop ∧
      byteLength l + byteLength m = site.tag.span.stop ∧ 0 < byteLength m ∧
      Patch.image source (made.flatMap (ownPatches source found)) site.anchor
        = some (byteLength l') := by
  have hplaced := placed_of_sites h (List.mem_of_find?_eq_some hsite)
  obtain ⟨l, m, r, rfl, hl, hm, hend⟩ := hplaced.exists_cut
  have houtside : ∀ p ∈ made.flatMap (ownPatches (l ++ (m ++ r)) found),
      p.stop ≤ byteLength l ∨ byteLength l + byteLength m < p.start := by
    intro p hp
    obtain ⟨other, hother, hp⟩ := List.mem_flatMap.1 hp
    rw [hend, hl]
    have hpair := (List.pairwise_append.1 hsep).2.2 other hother edit List.mem_cons_self
    exact hpair.symm.outside h hsite p hp
  obtain ⟨lefts, rights, l', r', haround, rfl⟩ := Patch.exists_around htext houtside
  have hpos : 0 < byteLength m := by
    have := hplaced.lt_stop
    omega
  have hfirst := haround.image_of_within hpos
  rw [Nat.add_zero, Nat.add_zero, hl] at hfirst
  exact ⟨l, m, r, lefts, rights, l', r', rfl, rfl, haround, hl, hm, hend, hpos, hfirst⟩

/-- The patches of an edit are those of its element alone, moved to where that stands, before other edits
have been made and behind them. -/
theorem exists_own {l m r l' r' : Text} (h : sites dialect (l ++ (m ++ r)) = .ok found)
    (hnow : sites dialect (l' ++ (m ++ r')) = .ok now) {site again : Site}
    (hsite : findSite found edit.address = some site) (hagain : again ∈ now)
    (hl : byteLength l = site.anchor) (hm : byteLength m = site.tag.shape.span.stop)
    (hl' : byteLength l' = again.anchor) (hshape : again.tag.shape = site.tag.shape)
    (hrefusal : edit.refusal = none) :
    ∃ own, Patch.Inside m 0 (byteLength m) own ∧
      ownPatches (l ++ (m ++ r)) found edit = own.map (Patch.moved (byteLength l)) ∧
      again.patches (l' ++ (m ++ r')) edit = .ok (own.map (Patch.moved (byteLength l'))) := by
  have hmem := List.mem_of_find?_eq_some hsite
  obtain ⟨own, hown⟩ := exists_patches_of_refusal hrefusal site.alone m
  obtain ⟨halone, hinside⟩ := exists_inside_alone h hmem hl hm hown
  refine ⟨own, hinside, ?_, ?_⟩
  · rw [ownPatches, hsite]
    dsimp only
    rw [patches_of_shape_eq halone (placed_of_sites h hmem) hl rfl rfl, hown]
    rfl
  · rw [patches_of_shape_eq halone (placed_of_sites hnow hagain) hl'
      (name_eq_of_shape_eq h hnow hmem hagain hshape) hshape, hown]
    rfl

/-- An edit that is refused is refused wherever its element is. -/
theorem attempt_behind_of_refusal (hstill : StillRead dialect source found made (edit :: others))
    {site : Site} (hsite : findSite found edit.address = some site)
    (htext : Patch.applyAll source (made.flatMap (ownPatches source found)) = .ok text)
    (hnow : sites dialect text = .ok now) {reason : EditError} (hrefusal : edit.refusal = some reason) :
    (Anchored.behind source found made edit).attempt dialect text now = .error reason := by
  obtain ⟨again, -, -, -, hattempt⟩ := exists_attempt_eq hstill htext hnow List.mem_cons_self hsite
  rw [hattempt, applyAt, patches_of_refusal hrefusal]

/-- An edit that is refused has no patches, so nothing changes for the others. -/
theorem flatMap_ownPatches_of_refusal {reason : EditError} (hrefusal : edit.refusal = some reason) :
    (made ++ [edit]).flatMap (ownPatches source found) = made.flatMap (ownPatches source found) := by
  rw [List.flatMap_append, List.flatMap_singleton, ownPatches_of_refusal hrefusal, List.append_nil]

theorem behind_of_refusal {reason : EditError} (hrefusal : edit.refusal = some reason)
    (other : PendingEdit) :
    Anchored.behind source found (made ++ [edit]) other = Anchored.behind source found made other := by
  rw [Anchored.behind, Anchored.behind, flatMap_ownPatches_of_refusal hrefusal]

/-- A separate element is followed through the patches of an edit to where these and those made before
carry it. -/
theorem follow_behind {l m r l' r' final : Text} {lefts rights own : List Patch}
    (haround : Patch.Around l m r (made.flatMap (ownPatches (l ++ (m ++ r)) found)) lefts rights l' r')
    (hapart : (made.flatMap (ownPatches (l ++ (m ++ r)) found)).Pairwise Patch.Apart)
    (hinside : Patch.Inside m 0 (byteLength m) own) (hpos : 0 < byteLength m)
    (hpatches : (made ++ [edit]).flatMap (ownPatches (l ++ (m ++ r)) found)
      = made.flatMap (ownPatches (l ++ (m ++ r)) found) ++ own.map (Patch.moved (byteLength l)))
    (hfinal : Patch.applyAll (l' ++ (m ++ r')) (own.map (Patch.moved (byteLength l'))) = .ok final)
    (hfit : byteLength final ≤ Patch.offsetLimit) {other : PendingEdit} {site : Site} {place : Nat}
    (hsite : findSite found other.address = some site)
    (hlt : site.anchor < byteLength (l ++ (m ++ r)))
    (houtside : site.anchor < byteLength l ∨ byteLength l + byteLength m ≤ site.anchor)
    (himage : Patch.image (l ++ (m ++ r)) (made.flatMap (ownPatches (l ++ (m ++ r)) found)) site.anchor
      = some place) :
    (Anchored.behind (l ++ (m ++ r)) found made other).follow (own.map (Patch.moved (byteLength l')))
      = Anchored.behind (l ++ (m ++ r)) found (made ++ [edit]) other := by
  have hplace := (Patch.getElem?_of_image haround.applyAll himage).1
  have hfollow := Patch.follow_eq_image hfinal hplace hfit
  have hcarry := haround.image_append hapart hinside hpos hlt houtside himage
  simp only [Anchored.follow, Anchored.behind, hsite, Option.bind_some, himage]
  rw [hfollow, hcarry, hpatches]

/-- **One edit.** An edit that can be written is made where its element was carried. It makes what its
patches and those made before make of the source at once, and the places of the other elements are
carried on. -/
theorem exists_attempt_behind (h : sites dialect source = .ok found)
    (hsep : (made ++ edit :: others).Pairwise (Separate found)) {site : Site}
    (hsite : findSite found edit.address = some site)
    (hstill : StillRead dialect source found made (edit :: others))
    (hstill' : StillRead dialect source found (made ++ [edit]) others)
    (htext : Patch.applyAll source (made.flatMap (ownPatches source found)) = .ok text)
    (hnow : sites dialect text = .ok now) (hrefusal : edit.refusal = none) :
    ∃ next, (Anchored.behind source found made edit).attempt dialect text now = .ok next ∧
      Patch.applyAll source ((made ++ [edit]).flatMap (ownPatches source found)) = .ok next.source ∧
      sites dialect next.source = .ok next.sites ∧
      ∀ other ∈ others, (Anchored.behind source found made other).follow next.patches
        = Anchored.behind source found (made ++ [edit]) other := by
  obtain ⟨hmade, hrest, -⟩ := List.pairwise_append.1 hsep
  have hapart := pairwise_ownPatches h hmade
  obtain ⟨again, hagain, himage, hshape, hattempt⟩ :=
    exists_attempt_eq hstill htext hnow List.mem_cons_self hsite
  obtain ⟨l, m, r, lefts, rights, l', r', rfl, rfl, haround, hl, hm, hend, hpos, hcarried⟩ :=
    exists_around_element h hsep hsite htext
  have hl' : byteLength l' = again.anchor := Option.some.inj (hcarried.symm.trans himage)
  obtain ⟨own, hinside, hbefore, hbehind⟩ :=
    exists_own h hnow hsite hagain hl hm hl' hshape hrefusal
  obtain ⟨m', hm'⟩ := hinside.exists_weaves
  have hmoved := Patch.applyAll_moved hm' l' r'
  have hpatches : (made ++ [edit]).flatMap (ownPatches (l ++ (m ++ r)) found)
      = made.flatMap (ownPatches (l ++ (m ++ r)) found) ++ own.map (Patch.moved (byteLength l)) := by
    rw [List.flatMap_append, List.flatMap_singleton, hbefore]
  have hall := hpatches ▸ haround.applyAll_append hapart hinside hm'
  obtain ⟨hfit, now', hnow', -⟩ := hstill' _ (mem_toOption.2 hall)
  have hread := mem_toOption.1 hnow'
  refine ⟨⟨_, now', own.map (Patch.moved (byteLength l'))⟩, ?_, hall, hread, ?_⟩
  · rw [hattempt, applyAt, hbehind]
    dsimp only
    rw [hmoved]
    dsimp only
    rw [hread]
  · intro other hother
    cases hsite' : findSite found other.address with
    | none => simp [Anchored.follow, Anchored.behind, hsite']
    | some site' =>
      obtain ⟨again', -, himage', -⟩ :=
        hstill.exists_again htext hnow (List.mem_cons_of_mem edit hother) hsite'
      refine follow_behind haround hapart hinside hpos hpatches hmoved hfit hsite'
        (anchor_lt h (List.mem_of_find?_eq_some hsite')) ?_ himage'
      rw [hend, hl]
      exact ((List.pairwise_cons.1 hrest).1 other hother).anchor_outside h hsite hsite'

end Step

/-! ## Whole batches -/

section Run

variable {dialect : Dialect} {source : Text} {found : List Site} {edits : List PendingEdit}

/-- **The rest of a batch.** Whatever edits have been made, the others end with what the patches of all
edits make of the source at once. -/
theorem exists_applyAnchored_behind (h : sites dialect source = .ok found)
    (hsep : edits.Pairwise (Separate found))
    (hfound : ∀ edit ∈ edits, ∃ site, findSite found edit.address = some site)
    (hund : Undisturbed dialect source found edits) (others made : List PendingEdit) {text : Text}
    {now : List Site} (hperm : (made ++ others).Perm edits)
    (htext : Patch.applyAll source (made.flatMap (ownPatches source found)) = .ok text)
    (hnow : sites dialect text = .ok now) :
    ∃ final,
      Patch.applyAll source ((made ++ others).flatMap (ownPatches source found)) = .ok final ∧
      applyAnchored dialect text now (others.map (Anchored.behind source found made))
        = ⟨final, others.filter fun edit => edit.refusal.isNone,
            others.filterMap PendingEdit.refused?⟩ := by
  induction others generalizing made text now with
  | nil =>
    rw [List.append_nil, List.map_nil, applyAnchored]
    exact ⟨text, htext, rfl⟩
  | cons edit others ih =>
    have hperm' : ((made ++ [edit]) ++ others).Perm edits := by
      rwa [List.append_assoc, List.singleton_append]
    have hstill := hund made (edit :: others) hperm
    obtain ⟨site, hsite⟩ := hfound edit (hperm.subset (by simp))
    rw [List.map_cons, applyAnchored_cons]
    cases hrefusal : edit.refusal with
    | some reason =>
      have hsame : (made ++ [edit]).flatMap (ownPatches source found)
          = made.flatMap (ownPatches source found) := flatMap_ownPatches_of_refusal hrefusal
      obtain ⟨final, hfinal, hrest⟩ := ih (made ++ [edit]) hperm' (hsame ▸ htext) hnow
      rw [List.append_assoc, List.singleton_append] at hfinal
      rw [List.map_congr_left fun other _ => behind_of_refusal hrefusal other] at hrest
      refine ⟨final, hfinal, ?_⟩
      rw [attempt_behind_of_refusal hstill hsite htext hnow hrefusal]
      dsimp only
      rw [hrest]
      simp [BatchOutcome.withSkipped, Anchored.behind, PendingEdit.refused?, hrefusal]
    | none =>
      have hpairs := hperm.symm.pairwise hsep Separate.symm
      obtain ⟨next, hattempt, hnext, hread, hfollow⟩ := exists_attempt_behind h hpairs hsite hstill
        (hund (made ++ [edit]) others hperm') htext hnow hrefusal
      obtain ⟨final, hfinal, hrest⟩ := ih (made ++ [edit]) hperm' hnext hread
      rw [List.append_assoc, List.singleton_append] at hfinal
      refine ⟨final, hfinal, ?_⟩
      have hfollowed : (others.map (Anchored.behind source found made)).map (Anchored.follow next.patches)
          = others.map (Anchored.behind source found (made ++ [edit])) := by
        rw [List.map_map]
        exact List.map_congr_left hfollow
      rw [hattempt]
      dsimp only
      rw [hfollowed, hrest]
      simp [BatchOutcome.withApplied, Anchored.behind, PendingEdit.refused?, hrefusal]

/-- Before any edit is made each element is where it was found. -/
theorem ofEdit_eq_behind (h : sites dialect source = .ok found) (edit : PendingEdit) :
    Anchored.ofEdit found edit = Anchored.behind source found [] edit := by
  rw [Anchored.ofEdit, Anchored.behind, List.flatMap_nil]
  cases hsite : findSite found edit.address with
  | none => rfl
  | some site =>
    rw [Option.map_some, Option.bind_some,
      Patch.image_nil (anchor_lt h (List.mem_of_find?_eq_some hsite))]

/-- **The order of a batch does not matter** if its edits name separate elements and leave each other's
elements as they are. Whatever the order, the batch ends with the text that the patches of all the edits
make of the source at once. It applies all edits but those that ask for something that cannot be
written, and skips these with the reason why they cannot. -/
theorem applyBatch_of_undisturbed (h : sites dialect source = .ok found)
    (hfound : ∀ edit ∈ edits, ∃ site, findSite found edit.address = some site)
    (hsep : edits.Pairwise (Separate found)) (hund : Undisturbed dialect source found edits) :
    ∃ final, Patch.applyAll source (edits.flatMap (ownPatches source found)) = .ok final ∧
      ∀ order : List PendingEdit, order.Perm edits →
        applyBatch dialect source order
          = .ok ⟨final, order.filter fun edit => edit.refusal.isNone,
              order.filterMap PendingEdit.refused?⟩ := by
  have hrun : ∀ order : List PendingEdit, order.Perm edits → ∃ final,
      Patch.applyAll source (edits.flatMap (ownPatches source found)) = .ok final ∧
        applyBatch dialect source order
          = .ok ⟨final, order.filter fun edit => edit.refusal.isNone,
              order.filterMap PendingEdit.refused?⟩ := by
    intro order hperm
    obtain ⟨final, hfinal, hbatch⟩ := exists_applyAnchored_behind h hsep hfound hund order [] hperm
      (Patch.applyAll_nil source) h
    refine ⟨final, ?_, ?_⟩
    · rw [Patch.applyAll_eq_of_perm (pairwise_ownPatches h hsep) (hperm.symm.flatMap_right _)]
      exact hfinal
    · rw [applyBatch, h]
      dsimp only
      rw [List.map_congr_left fun edit _ => ofEdit_eq_behind h edit, hbatch]
  obtain ⟨final, hfinal, -⟩ := hrun edits (.refl edits)
  refine ⟨final, hfinal, fun order hperm => ?_⟩
  obtain ⟨other, hother, hbatch⟩ := hrun order hperm
  obtain rfl := Except.ok.inj (hfinal.symm.trans hother)
  exact hbatch

end Run

/-- A self-closing element and another one behind it. -/
theorem applyBatch_of_undisturbed_pair :
    let source := "<><b/><i>y</i></>".toList
    let edits : List PendingEdit :=
      [.text ⟨.of "b".toList 0, "1".toList⟩, .text ⟨.of "i".toList 0, "2".toList⟩]
    ∃ found, sites .tsx source = .ok found ∧
      (∀ edit ∈ edits, ∃ site, findSite found edit.address = some site) ∧
      edits.Pairwise (Separate found) ∧ Undisturbed .tsx source found edits ∧
      ∃ final, Patch.applyAll source (edits.flatMap (ownPatches source found)) = .ok final ∧
        ∀ order : List PendingEdit, order.Perm edits →
          applyBatch .tsx source order
            = .ok ⟨final, order.filter fun edit => edit.refusal.isNone,
                order.filterMap PendingEdit.refused?⟩ := by
  intro source edits
  let found : List Site :=
    [⟨.of "b".toList 0, "b".toList, ⟨some "b".toList, ⟨2, 6⟩, ⟨2, 6⟩, ⟨3, 4⟩, none, none, 4⟩, [], true⟩,
      ⟨.of "i".toList 0, "i".toList,
        ⟨some "i".toList, ⟨6, 14⟩, ⟨6, 9⟩, ⟨7, 8⟩, some ⟨⟨10, 14⟩, ⟨12, 13⟩⟩, none, 8⟩, "y".toList, true⟩]
  have h : sites .tsx source = .ok found := by decide +kernel
  have hfound : ∀ edit ∈ edits, ∃ site, findSite found edit.address = some site := by
    intro edit hedit
    rcases List.mem_pair.1 hedit with rfl | rfl
    · exact ⟨_, rfl⟩
    · exact ⟨_, rfl⟩
  have hsep : edits.Pairwise (Separate found) := by
    refine List.pairwise_pair.2 ?_
    intro site site' hsite hsite'
    obtain rfl := Option.some.inj hsite
    obtain rfl := Option.some.inj hsite'
    unfold Site.Contains
    decide
  -- Both edits at once, in either order.
  have hboth : ∀ order : List PendingEdit, order.Perm edits →
      StillRead .tsx source found order [] := by
    intro order hperm text htext
    have hpatches : edits.flatMap (ownPatches source found)
        = [⟨4, 6, ">1</b>".toList⟩, ⟨9, 10, "2".toList⟩] := by decide +kernel
    have horder : Patch.inOrder (edits.flatMap (ownPatches source found))
        = [⟨4, 6, ">1</b>".toList⟩, ⟨9, 10, "2".toList⟩] := by
      refine Patch.inOrder_eq_of_pairwise (List.pairwise_pair.2 ?_) (hpatches ▸ .refl _)
      unfold Patch.Precedes
      decide
    rw [mem_toOption, Patch.applyAll_eq_of_perm
      (pairwise_ownPatches h (hperm.symm.pairwise hsep Separate.symm)) (hperm.flatMap_right _),
      Patch.applyAll, horder] at htext
    have hfinal : text = "<><b>1</b><i>2</i></>".toList :=
      Except.ok.inj (htext.symm.trans (by decide +kernel))
    have hread : ((sites .tsx "<><b>1</b><i>2</i></>".toList).toOption).isSome = true := by
      decide +kernel
    obtain ⟨now, hnow⟩ := Option.isSome_iff_exists.1 hread
    rw [hfinal]
    exact ⟨by decide, now, hnow, by simp⟩
  have hund : Undisturbed .tsx source found edits := by
    intro made others hperm
    cases others with
    | nil => exact hboth made (List.append_nil made ▸ hperm)
    | cons edit others =>
      have hlength := hperm.length_eq
      rcases made with _ | ⟨first, _ | ⟨second, made⟩⟩
      · rcases List.perm_pair.1 hperm with heq | heq
        · obtain ⟨rfl, rfl⟩ := List.cons.inj heq
          decide +kernel
        · obtain ⟨rfl, rfl⟩ := List.cons.inj heq
          decide +kernel
      · rcases List.perm_pair.1 hperm with heq | heq
        · obtain ⟨rfl, hrest⟩ := List.cons.inj heq
          obtain ⟨rfl, rfl⟩ := List.cons.inj hrest
          decide +kernel
        · obtain ⟨rfl, hrest⟩ := List.cons.inj heq
          obtain ⟨rfl, rfl⟩ := List.cons.inj hrest
          decide +kernel
      · simp [edits] at hlength
  exact ⟨found, h, hfound, hsep, hund, applyBatch_of_undisturbed h hfound hsep hund⟩

/-! ## Where the order matters -/

/-- What is told of a batch: the text, and the elements of the edits that were applied and skipped. -/
def BatchOutcome.told (outcome : BatchOutcome) : Text × List Address × List Address :=
  (outcome.source, outcome.applied.map PendingEdit.address,
    outcome.skipped.map fun skipped => skipped.edit.address)

/-- Two edits of elements that stand side by side, in one order and in the other. -/
theorem exists_order_matters :
    (sites .tsx "<p / >, <i/>> 1".toList).map (fun found =>
        found.map fun site => (site.address, site.tag.span))
      = .ok [(.of "p".toList 0, ⟨0, 6⟩), (.of "i".toList 0, ⟨8, 12⟩)] ∧
    (applyBatch .tsx "<p / >, <i/>> 1".toList
          [.text ⟨.of "p".toList 0, "a".toList⟩, .text ⟨.of "i".toList 0, "b".toList⟩]).toOption.map
        BatchOutcome.told
      = some ("<p / >>a</p>, <i/>> 1".toList, [.of "p".toList 0], [.of "i".toList 0]) ∧
    (applyBatch .tsx "<p / >, <i/>> 1".toList
          [.text ⟨.of "i".toList 0, "b".toList⟩, .text ⟨.of "p".toList 0, "a".toList⟩]).toOption.map
        BatchOutcome.told
      = some ("<p / >>a</p>, <i>b</i>> 1".toList, [.of "i".toList 0, .of "p".toList 0], []) := by
  refine ⟨?_, ?_, ?_⟩ <;> decide +kernel

end Retouch
