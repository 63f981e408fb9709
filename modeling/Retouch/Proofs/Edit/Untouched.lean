import Retouch.Proofs.Edit.OwnSpans
import Retouch.Proofs.Patch.Following

/-!
# What edits leave alone

An edit that is written into a source changes nothing but the ranges of its element (`Site.Confined`). A batch
writes its edits one after the other, each into what the ones before have made, so its ranges are ranges
of different texts. `Trail` is the chain of these texts. A byte of the first one that no write touches where
it is by then (`Spares`) is still there at the end, and such bytes keep their order: `Write.Made.exists_place`
and `Write.Made.place_lt` say so of one write, `Trail.exists_place` and `Trail.place_lt` of a whole trail. The
main statement is `edits_keep_rest`.
-/

namespace Retouch

open Text

/-! ## One write -/

/-- An edit that was written into a text: at which site, and what it made of the text. -/
structure Write where
  before : Text
  site : Site
  edit : PendingEdit
  after : EditedSource

namespace Write

/-- Whether the edit is written at a site of the text. -/
def Made (dialect : Dialect) (w : Write) : Prop :=
  ∃ found, sites dialect w.before = .ok found ∧ w.site ∈ found ∧
    applyAt dialect w.before w.site w.edit = .ok w.after

/-- Whether the byte at an offset of the text is in one of the ranges that the edit can change. -/
def Touches (w : Write) (offset : Nat) : Prop :=
  ∃ span ∈ w.site.ownSpans w.edit, span.start ≤ offset ∧ offset < span.stop

/-- Where the byte at an offset of the text is afterwards, if it is still there. -/
def place (w : Write) (offset : Nat) : Option Nat := Patch.image w.before w.after.patches offset

variable {dialect : Dialect} {w : Write}

theorem Made.confined (h : w.Made dialect) : w.site.Confined w.edit w.before w.after.source := by
  obtain ⟨found, hfound, hsite, hmade⟩ := h
  exact Site.confined_of_applyAt hfound hsite hmade

/-- **A write keeps every byte that it does not touch.** -/
theorem Made.exists_place (h : w.Made dialect) {offset : Nat} (hlt : offset < byteLength w.before)
    (huntouched : ¬ w.Touches offset) :
    ∃ now, w.place offset = some now ∧ now < byteLength w.after.source ∧
      (bytes w.after.source)[now]? = (bytes w.before)[offset]? := by
  obtain ⟨found, hfound, hsite, hmade⟩ := h
  obtain ⟨-, houtput, hown⟩ := sites_of_applyAt hmade
  have hclear : ∀ p ∈ w.after.patches, p.stop ≤ offset ∨ offset < p.start := by
    intro p hp
    obtain ⟨span, hspan, hin⟩ := Span.exists_standsIn (Site.patches_standsIn hfound hsite hown)
      (List.mem_map_of_mem (Patch.mem_inOrder.2 hp))
    by_contra hcovered
    have hstart : span.start ≤ p.start := hin.1
    have hstop : p.stop ≤ span.stop := hin.2
    exact huntouched ⟨span, hspan, by omega⟩
  obtain ⟨now, hnow⟩ := Patch.exists_image houtput hlt hclear
  exact ⟨now, hnow, Patch.getElem?_of_image houtput hnow⟩

/-- **A write keeps the order of bytes.** -/
theorem Made.place_lt (h : w.Made dialect) {x y x' y' : Nat} (hx : w.place x = some x')
    (hy : w.place y = some y') (hlt : x < y) : x' < y' := by
  obtain ⟨found, -, -, hmade⟩ := h
  exact Patch.image_lt (sites_of_applyAt hmade).2.1 hx hy hlt

end Write

/-! ## Trails -/

/-- Writes that make the last text of the first one, each in what the one before it has made. -/
inductive Trail (dialect : Dialect) : (source : Text) → List Write → (output : Text) → Prop
  | nil (source : Text) : Trail dialect source [] source
  | cons {w : Write} {writes : List Write} {output : Text} (made : w.Made dialect)
      (later : Trail dialect w.after.source writes output) : Trail dialect w.before (w :: writes) output

/-- Where the byte at an offset is behind some writes, if it is still there. -/
def placeBehind : List Write → (offset : Nat) → Option Nat
  | [], offset => some offset
  | w :: writes, offset => (w.place offset).bind (placeBehind writes)

/-- Whether none of the writes touches the byte at an offset, wherever it is by then. -/
def Spares : List Write → (offset : Nat) → Prop
  | [], _ => True
  | w :: writes, offset => ¬ w.Touches offset ∧ ∀ now, w.place offset = some now → Spares writes now

/-- Where an element begins behind some writes, as a batch follows it. -/
def followed (origin : Option Nat) (writes : List Write) : Option Nat :=
  writes.foldl (fun at_ w => at_.bind (Patch.follow w.after.patches)) origin

namespace Trail

variable {dialect : Dialect} {source output : Text} {writes : List Write}

theorem made (h : Trail dialect source writes output) : ∀ w ∈ writes, w.Made dialect := by
  induction h with
  | nil source => simp
  | cons hmade _ ih => exact List.forall_mem_cons.2 ⟨hmade, ih⟩

/-- **Bytes that are spared survive.** -/
theorem exists_place (h : Trail dialect source writes output) {offset : Nat}
    (hlt : offset < byteLength source) (hspared : Spares writes offset) :
    ∃ now, placeBehind writes offset = some now ∧ now < byteLength output ∧
      (bytes output)[now]? = (bytes source)[offset]? := by
  induction h generalizing offset with
  | nil source => exact ⟨offset, rfl, hlt, rfl⟩
  | @cons w writes output hmade _ ih =>
    obtain ⟨huntouched, hlater⟩ := hspared
    obtain ⟨middle, hmiddle, hin, hbyte⟩ := hmade.exists_place hlt huntouched
    obtain ⟨now, hnow, hend, hsame⟩ := ih hin (hlater middle hmiddle)
    refine ⟨now, ?_, hend, hsame.trans hbyte⟩
    rw [placeBehind, hmiddle]
    exact hnow

/-- **Bytes that survive keep their order.** -/
theorem place_lt (h : Trail dialect source writes output) {x y x' y' : Nat}
    (hx : placeBehind writes x = some x') (hy : placeBehind writes y = some y') (hlt : x < y) :
    x' < y' := by
  induction h generalizing x y with
  | nil source =>
    obtain rfl := Option.some.inj hx
    obtain rfl := Option.some.inj hy
    exact hlt
  | @cons w writes output hmade _ ih =>
    obtain ⟨a, ha, hx⟩ := Option.bind_eq_some_iff.1 hx
    obtain ⟨b, hb, hy⟩ := Option.bind_eq_some_iff.1 hy
    exact ih hx hy (hmade.place_lt ha hb hlt)

end Trail

/-! ## Batches -/

/-- A site at which an anchored edit is made begins at its anchor. -/
theorem Anchored.of_site? {a : Anchored} {found : List Site} {site : Site}
    (h : a.site? found = some site) : site ∈ found ∧ a.anchor = some site.anchor := by
  obtain ⟨start, hstart, hfound⟩ := Option.bind_eq_some_iff.1 h
  have hat : site.anchor = start := by simpa using List.find?_some hfound
  exact ⟨List.mem_of_find?_eq_some hfound, hat ▸ hstart⟩

/-- What anchored edits have to leave behind: a trail of those that are applied, each of them written at
the site to which it has been led. -/
structure TrailOf (dialect : Dialect) (source : Text) (edits : List Anchored) (outcome : BatchOutcome)
    (writes : List Write) : Prop where
  trail : Trail dialect source writes outcome.source
  applied : writes.map Write.edit = outcome.applied
  led : ∀ earlier w later, writes = earlier ++ w :: later →
    ∃ a ∈ edits, a.edit = w.edit ∧ followed a.anchor earlier = some w.site.anchor

namespace TrailOf

variable {dialect : Dialect} {source : Text} {a : Anchored} {rest : List Anchored}
  {outcome : BatchOutcome} {writes : List Write}

/-- An edit that is skipped leaves nothing. -/
theorem skip (h : TrailOf dialect source rest outcome writes) (a : Anchored) (reason : EditError) :
    TrailOf dialect source (a :: rest) (outcome.withSkipped a.edit reason) writes where
  trail := h.trail
  applied := h.applied
  led earlier w later hwrites := by
    obtain ⟨b, hb, hled⟩ := h.led earlier w later hwrites
    exact ⟨b, List.mem_cons_of_mem a hb, hled⟩

/-- An edit that is applied comes before those that are led behind it. -/
theorem apply {w : Write} (hmade : w.Made dialect) (hedit : a.edit = w.edit)
    (hanchor : a.anchor = some w.site.anchor)
    (h : TrailOf dialect w.after.source (rest.map (Anchored.follow w.after.patches)) outcome writes) :
    TrailOf dialect w.before (a :: rest) (outcome.withApplied a.edit) (w :: writes) where
  trail := .cons hmade h.trail
  applied := by
    rw [List.map_cons, h.applied, hedit]
    rfl
  led earlier v later hwrites := by
    cases earlier with
    | nil =>
      obtain ⟨rfl, -⟩ := List.cons.inj hwrites
      exact ⟨a, List.mem_cons_self, hedit, hanchor⟩
    | cons first earlier =>
      obtain ⟨rfl, hlater⟩ := List.cons.inj hwrites
      obtain ⟨b, hb, hled⟩ := h.led earlier v later hlater
      obtain ⟨c, hc, rfl⟩ := List.mem_map.1 hb
      exact ⟨c, List.mem_cons_of_mem a hc, hled⟩

end TrailOf

/-- **Anchored edits leave a trail.** -/
theorem exists_trailOf {dialect : Dialect} {source : Text} {found : List Site}
    (h : sites dialect source = .ok found) (edits : List Anchored) :
    ∃ writes, TrailOf dialect source edits (applyAnchored dialect source found edits) writes := by
  fun_induction applyAnchored dialect source found edits
  case case1 source found => exact ⟨[], .nil source, rfl, by simp⟩
  case case2 source found a rest _ ih =>
    obtain ⟨writes, hwrites⟩ := ih h
    exact ⟨writes, hwrites.skip a _⟩
  case case3 source found a rest site _ reason _ ih =>
    obtain ⟨writes, hwrites⟩ := ih h
    exact ⟨writes, hwrites.skip a reason⟩
  case case4 source found a rest site hsite next hnext ih =>
    rw [List.map_attach_eq_pmap, List.pmap_eq_map] at ih
    obtain ⟨hmem, hanchor⟩ := Anchored.of_site? hsite
    obtain ⟨writes, hwrites⟩ := ih (sites_of_applyAt hnext).1
    have hmade : Write.Made dialect ⟨source, site, a.edit, next⟩ := ⟨found, h, hmem, hnext⟩
    exact ⟨_, .apply hmade rfl hanchor hwrites⟩

/-- **Edits touch only their own ranges.** An edit by itself is written at the site with its address, and
changes nothing but the ranges of the edit there. A batch is a chain of such writes, each at the site to
which its edit has been led. Every byte of the source that is in no range of a write, wherever it is by
then, is still there at the end, and these bytes are in the order in which they were. -/
theorem edits_keep_rest (dialect : Dialect) (source : Text) :
    (∀ edit output, applyEdit dialect source edit = .ok output →
      ∃ found site, sites dialect source = .ok found ∧ findSite found edit.address = some site ∧
        site.Confined edit source output) ∧
    ∀ edits outcome, applyBatch dialect source edits = .ok outcome →
      ∃ found writes, sites dialect source = .ok found ∧
        TrailOf dialect source (edits.map (Anchored.ofEdit found)) outcome writes ∧
        (∀ w ∈ writes, w.site.Confined w.edit w.before w.after.source) ∧
        (∀ offset < byteLength source, Spares writes offset →
          ∃ now, placeBehind writes offset = some now ∧ now < byteLength outcome.source ∧
            (bytes outcome.source)[now]? = (bytes source)[offset]?) ∧
        ∀ x y x' y', placeBehind writes x = some x' → placeBehind writes y = some y' → x < y → x' < y' := by
  constructor
  · intro edit output h
    obtain ⟨found, site, next, hfound, hsite, hnext, rfl⟩ := applyEdit_eq_ok_iff.1 h
    exact ⟨found, site, hfound, hsite,
      Site.confined_of_applyAt hfound (List.mem_of_find?_eq_some hsite) hnext⟩
  · intro edits outcome h
    obtain ⟨found, hfound, rfl⟩ := applyBatch_eq_ok_iff.1 h
    obtain ⟨writes, hwrites⟩ := exists_trailOf hfound (edits.map (Anchored.ofEdit found))
    exact ⟨found, writes, hfound, hwrites, fun w hw => (hwrites.trail.made w hw).confined,
      fun offset hlt hspared => hwrites.trail.exists_place hlt hspared,
      fun x y x' y' hx hy hlt => hwrites.trail.place_lt hx hy hlt⟩

/-- A batch of one edit writes it as it is written by itself. -/
theorem applyBatch_singleton {dialect : Dialect} {source output : Text} {found : List Site} {site : Site}
    {edit : PendingEdit} {own : List Patch} (h : sites dialect source = .ok found)
    (hsite : findSite found edit.address = some site) (hown : site.patches source edit = .ok own)
    (houtput : Patch.applyAll source own = .ok output) {now : List Site}
    (hnow : sites dialect output = .ok now) :
    applyEdit dialect source edit = .ok output ∧
      applyBatch dialect source [edit] = .ok ⟨output, [edit], []⟩ := by
  have hnext : applyAt dialect source site edit = .ok ⟨output, now, own⟩ := by
    rw [applyAt, hown]
    dsimp only
    rw [houtput]
    dsimp only
    rw [hnow]
  have hattempt : (Anchored.ofEdit found edit).attempt dialect source found
      = .ok ⟨output, now, own⟩ := by
    have hanchor : (Anchored.ofEdit found edit).anchor = some site.anchor := by
      rw [Anchored.ofEdit, hsite, Option.map_some]
    rw [Anchored.attempt, site?_eq_some h (List.mem_of_find?_eq_some hsite) hanchor]
    exact hnext
  constructor
  · exact applyEdit_eq_ok_iff.2 ⟨found, site, _, h, hsite, hnext, rfl⟩
  · refine applyBatch_eq_ok_iff.2 ⟨found, h, ?_⟩
    rw [List.map_singleton, applyAnchored_cons, hattempt]
    dsimp only
    rw [List.map_nil, applyAnchored]
    rfl

/-- The break that stands in `<p>a<br/></p>`. -/
def breakSite : Site :=
  ⟨.of "br".toList 0, "br".toList, ⟨some "br".toList, ⟨4, 9⟩, ⟨4, 9⟩, ⟨5, 7⟩, none, none, 7⟩, [], true⟩

/-- A break gets a text: what stood behind it stands behind its new closing tag. -/
theorem edits_keep_rest_break :
    ∃ source edit output, source = "<p>a<br/></p>".toList ∧ output = "<p>a<br>b</br></p>".toList ∧
      applyEdit .tsx source edit = .ok output ∧
      breakSite.ownSpans edit = [⟨7, 9⟩] ∧ breakSite.Confined edit source output ∧
      applyBatch .tsx source [edit] = .ok ⟨output, [edit], []⟩ ∧
      ∃ writes, Trail .tsx source writes output ∧ writes.map Write.edit = [edit] ∧
        ∀ offset < byteLength source, Spares writes offset →
          ∃ now, placeBehind writes offset = some now ∧ (bytes output)[now]? = (bytes source)[offset]? := by
  have hfound : sites .tsx "<p>a<br/></p>".toList = .ok [⟨.of "p".toList 0, "p".toList,
      ⟨some "p".toList, ⟨0, 13⟩, ⟨0, 3⟩, ⟨1, 2⟩, some ⟨⟨9, 13⟩, ⟨11, 12⟩⟩, none, 2⟩, "a".toList, false⟩,
      breakSite] := by decide +kernel
  have hnow : sites .tsx "<p>a<br>b</br></p>".toList = .ok [⟨.of "p".toList 0, "p".toList,
      ⟨some "p".toList, ⟨0, 18⟩, ⟨0, 3⟩, ⟨1, 2⟩, some ⟨⟨14, 18⟩, ⟨16, 17⟩⟩, none, 2⟩, "a".toList, false⟩,
      ⟨.of "br".toList 0, "br".toList, ⟨some "br".toList, ⟨4, 14⟩, ⟨4, 8⟩, ⟨5, 7⟩,
        some ⟨⟨9, 14⟩, ⟨11, 13⟩⟩, none, 7⟩, "b".toList, true⟩] := by decide +kernel
  have hown : breakSite.patches "<p>a<br/></p>".toList (.text ⟨.of "br".toList 0, "b".toList⟩)
      = .ok [⟨7, 9, ">b</br>".toList⟩] := mem_toOption.1 (by decide +kernel)
  have houtput : Patch.applyAll "<p>a<br/></p>".toList [⟨7, 9, ">b</br>".toList⟩]
      = .ok "<p>a<br>b</br></p>".toList := by decide +kernel
  obtain ⟨hedit, hbatch⟩ := applyBatch_singleton hfound (by decide +kernel) hown houtput hnow
  obtain ⟨hsingle, hbatches⟩ := edits_keep_rest .tsx "<p>a<br/></p>".toList
  obtain ⟨found, site, hfirst, hsite, hconfined⟩ := hsingle _ _ hedit
  obtain rfl := Except.ok.inj (hfound.symm.trans hfirst)
  obtain rfl : breakSite = site := Option.some.inj (.trans (by decide +kernel) hsite)
  obtain ⟨_, writes, -, htrail, -, hkept, -⟩ := hbatches _ _ hbatch
  refine ⟨_, _, _, rfl, rfl, hedit, by decide +kernel, hconfined, hbatch, writes, htrail.trail,
    htrail.applied, ?_⟩
  intro offset hlt hspared
  obtain ⟨now, hplace, -, hbyte⟩ := hkept offset hlt hspared
  exact ⟨now, hplace, hbyte⟩

end Retouch
