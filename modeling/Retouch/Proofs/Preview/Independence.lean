import Retouch.Proofs.Live.Run

/-!
# Edits and statuses do not meet

A bridge takes in edits of texts on one hand, and on the other hand pushes, statuses of pushes and
payloads that are no message. `Intake` is a bridge with the buffer that its edits go into and the
counts of what it has taken in. An edit and anything else can change places (`take_comm`), so all that
matters of a run is the order among the edits and the order among the rest. The main statement is
`takeAll_of_interleaves`.
-/

namespace Retouch

/-! ## Interleavings -/

/-- Whether a list holds the members of two others, those of each in their order. -/
inductive Interleaves {α : Type} : (first second both : List α) → Prop where
  | nil : Interleaves [] [] []
  /-- The next member is one of the first list. -/
  | first {a : α} {first second both : List α} :
      Interleaves first second both → Interleaves (a :: first) second (a :: both)
  /-- The next member is one of the second list. -/
  | second {a : α} {first second both : List α} :
      Interleaves first second both → Interleaves first (a :: second) (a :: both)

/-! ## Counts -/

namespace PumpStats

/-- How many payloads were taken in. -/
def total (stats : PumpStats) : Nat := stats.edits + stats.statuses + stats.dropped

/-- Every payload is counted once, whatever comes of it. -/
@[simp] theorem total_add (stats : PumpStats) (handled : Option Handled) :
    (stats.add handled).total = stats.total + 1 := by
  rcases handled with _ | _ | _ | _ | _ <;> simp [add, total] <;> omega

/-- Only edits are counted as such. -/
theorem edits_add (stats : PumpStats) {handled : Option Handled}
    (h : handled ≠ some .editRecorded) : (stats.add handled).edits = stats.edits := by
  rcases handled with _ | _ | _ | _ | _
  case some.editRecorded => exact absurd rfl h
  all_goals rfl

/-- The order of what is counted makes no difference. -/
theorem add_right_comm (stats : PumpStats) (first second : Option Handled) :
    (stats.add first).add second = (stats.add second).add first := by
  rcases first with _ | _ | _ | _ | _ <;> rcases second with _ | _ | _ | _ | _ <;> rfl

end PumpStats

/-! ## What a payload does -/

namespace Bridge

open Live (reportedEdit?)

section Payload

variable (b : Bridge) (buffer : EditBuffer) {payload : Text}

/-- A payload that is no message changes nothing. -/
theorem receiveRaw_of_malformed (h : message? payload = none) :
    b.receiveRaw buffer payload = (b, buffer, none) := by
  rw [receiveRaw, h]

/-- A message about an earlier push changes nothing. -/
theorem receiveRaw_of_stale {message : InboundMessage} (h : message? payload = some message)
    (hstale : b.isStale message = true) :
    b.receiveRaw buffer payload = (b, buffer, some .stale) := by
  rw [receiveRaw, h]
  dsimp only
  unfold handle
  rw [if_pos hstale]

/-- An edit is recorded, whatever the bridge knows. The bridge does not change. -/
theorem receiveRaw_of_edit {edit : PendingEdit} (h : reportedEdit? payload = some edit) :
    b.receiveRaw buffer payload = (b, buffer.record edit, some .editRecorded) := by
  obtain ⟨message, hmessage, hedit⟩ := Option.bind_eq_some_iff.1 h
  cases message with
  | textEdit tag index text =>
    obtain rfl := Option.some.inj hedit
    rw [receiveRaw, hmessage]
    rfl
  | rendered revision => cases hedit
  | failed error revision => cases hedit

/-- What else comes of a payload has nothing to do with the buffer, and leaves it alone. -/
theorem receiveRaw_of_no_edit (h : reportedEdit? payload = none) (other : EditBuffer) :
    b.receiveRaw buffer payload
      = ((b.receiveRaw other payload).1, buffer, (b.receiveRaw other payload).2.2) := by
  unfold receiveRaw
  cases hmessage : message? payload with
  | none => rfl
  | some message =>
    dsimp only
    unfold handle
    by_cases hstale : b.isStale message = true
    · rw [if_pos hstale, if_pos hstale]
    · rw [if_neg hstale, if_neg hstale]
      cases message with
      | textEdit tag index text => simp [reportedEdit?, hmessage, InboundMessage.edit?] at h
      | rendered revision => rfl
      | failed error revision => rfl

/-- Nothing is counted as an edit that is none. -/
theorem handled_of_no_edit (h : reportedEdit? payload = none) :
    (b.receiveRaw buffer payload).2.2 ≠ some .editRecorded := by
  unfold receiveRaw
  cases hmessage : message? payload with
  | none => simp
  | some message =>
    dsimp only
    unfold handle
    by_cases hstale : b.isStale message = true
    · simp [hstale]
    · rw [if_neg hstale]
      cases message with
      | textEdit tag index text => simp [reportedEdit?, hmessage, InboundMessage.edit?] at h
      | rendered revision => simp
      | failed error revision => simp

end Payload

/-! ## What reaches a bridge -/

/-- What reaches a bridge: a document to push, or a payload of the sandbox. -/
inductive Input where
  | push (frame : Document)
  | payload (payload : Text)

/-- The edit that an input reports. -/
def Input.edit? : Input → Option PendingEdit
  | .push _ => none
  | .payload text => reportedEdit? text

/-- A bridge, the buffer that its edits go into, and what it has taken in. -/
structure Intake where
  bridge : Bridge
  buffer : EditBuffer
  stats : PumpStats

namespace Intake

/-- What an input makes of it. -/
def take (x : Intake) : Input → Intake
  | .push frame => { x with bridge := x.bridge.push frame }
  | .payload payload =>
    let (bridge, buffer, handled) := x.bridge.receiveRaw x.buffer payload
    ⟨bridge, buffer, x.stats.add handled⟩

theorem take_payload (x : Intake) (payload : Text) : x.take (.payload payload)
    = ⟨(x.bridge.receiveRaw x.buffer payload).1, (x.bridge.receiveRaw x.buffer payload).2.1,
        x.stats.add (x.bridge.receiveRaw x.buffer payload).2.2⟩ := rfl

/-- What inputs make of it, one after the other. -/
def takeAll (x : Intake) (inputs : List Input) : Intake := inputs.foldl take x

@[simp] theorem takeAll_cons (x : Intake) (i : Input) (rest : List Input) :
    x.takeAll (i :: rest) = (x.take i).takeAll rest := rfl

/-- To take in what waits on the wire is to take in its payloads. -/
theorem receiveAll_eq (x : Intake) (payloads : List Text) :
    x.bridge.receiveAll x.buffer x.stats payloads
      = ((x.takeAll (payloads.map .payload)).bridge, (x.takeAll (payloads.map .payload)).buffer,
          (x.takeAll (payloads.map .payload)).stats) := by
  induction payloads generalizing x with
  | nil => rfl
  | cons payload rest ih => exact ih (x.take (.payload payload))

/-- Each payload is counted once. -/
theorem total_takeAll_payloads (x : Intake) (payloads : List Text) :
    (x.takeAll (payloads.map .payload)).stats.total = x.stats.total + payloads.length := by
  induction payloads generalizing x with
  | nil => rfl
  | cons payload rest ih =>
    have hfirst : (x.take (.payload payload)).stats.total = x.stats.total + 1 :=
      PumpStats.total_add _ _
    rw [List.map_cons, takeAll_cons, ih, hfirst, List.length_cons]
    omega

/-! ## Edits -/

/-- An edit goes into the buffer and is counted. -/
theorem take_of_edit (x : Intake) {i : Input} {edit : PendingEdit} (h : i.edit? = some edit) :
    x.take i = { x with
      buffer := x.buffer.record edit
      stats := x.stats.add (some .editRecorded) } := by
  cases i with
  | push frame => cases h
  | payload payload => rw [take_payload, receiveRaw_of_edit _ _ h]

/-- **An edit and anything else can change places.** -/
theorem take_comm (x : Intake) {i j : Input} {edit : PendingEdit} (hi : i.edit? = some edit)
    (hj : j.edit? = none) : (x.take i).take j = (x.take j).take i := by
  rw [take_of_edit x hi, take_of_edit (x.take j) hi]
  cases j with
  | push frame => rfl
  | payload payload =>
    rw [take_payload, take_payload, PumpStats.add_right_comm,
      receiveRaw_of_no_edit x.bridge (x.buffer.record edit) hj x.buffer,
      receiveRaw_of_no_edit x.bridge x.buffer hj x.buffer]

/-- Anything else can as well stand behind edits as before them. -/
theorem takeAll_take (x : Intake) {edits : List Input} (h : ∀ i ∈ edits, i.edit?.isSome = true)
    {j : Input} (hj : j.edit? = none) : (x.take j).takeAll edits = (x.takeAll edits).take j := by
  induction edits generalizing x with
  | nil => rfl
  | cons i rest ih =>
    obtain ⟨hi, hrest⟩ := List.forall_mem_cons.1 h
    obtain ⟨edit, hedit⟩ := Option.isSome_iff_exists.1 hi
    rw [takeAll_cons, takeAll_cons, ← take_comm x hedit hj]
    exact ih (x.take i) hrest

/-- Edits all go into the buffer, in their order, and all are counted. -/
theorem takeAll_edits (x : Intake) {edits : List Input} (h : ∀ i ∈ edits, i.edit?.isSome = true) :
    x.takeAll edits = { x with
      buffer := (edits.filterMap Input.edit?).foldl EditBuffer.record x.buffer
      stats := { x.stats with edits := x.stats.edits + edits.length } } := by
  induction edits generalizing x with
  | nil => rfl
  | cons i rest ih =>
    obtain ⟨hi, hrest⟩ := List.forall_mem_cons.1 h
    obtain ⟨edit, hedit⟩ := Option.isSome_iff_exists.1 hi
    rw [takeAll_cons, ih _ hrest, take_of_edit x hedit, List.filterMap_cons_some hedit, List.length_cons]
    simp only [PumpStats.add, List.foldl_cons, Nat.add_assoc, Nat.add_comm 1]

/-! ## What is no edit -/

/-- What is no edit does to the bridge what it would do without the buffer, and leaves the buffer and
the count of edits alone. -/
theorem takeAll_of_no_edit (x y : Intake) (hbridge : x.bridge = y.bridge) {others : List Input}
    (h : ∀ i ∈ others, i.edit? = none) :
    (x.takeAll others).bridge = (y.takeAll others).bridge ∧
      (x.takeAll others).buffer = x.buffer ∧
      (x.takeAll others).stats.edits = x.stats.edits := by
  induction others generalizing x y with
  | nil => exact ⟨hbridge, rfl, rfl⟩
  | cons i rest ih =>
    obtain ⟨hi, hrest⟩ := List.forall_mem_cons.1 h
    have hfirst : (x.take i).bridge = (y.take i).bridge ∧ (x.take i).buffer = x.buffer ∧
        (x.take i).stats.edits = x.stats.edits := by
      cases i with
      | push frame => exact ⟨congrArg (Bridge.push · frame) hbridge, rfl, rfl⟩
      | payload payload =>
        have hcounted := PumpStats.edits_add x.stats (handled_of_no_edit y.bridge y.buffer hi)
        rw [take_payload, take_payload, receiveRaw_of_no_edit x.bridge x.buffer hi y.buffer, hbridge]
        exact ⟨rfl, rfl, hcounted⟩
    obtain ⟨hbridges, hbuffer, hcount⟩ := ih (x.take i) (y.take i) hfirst.1 hrest
    exact ⟨hbridges, hbuffer.trans hfirst.2.1, hcount.trans hfirst.2.2⟩

/-! ## Every interleaving -/

/-- **A run** comes to the same as its edits and then the rest. -/
theorem takeAll_eq_of_interleaves {edits others both : List Input}
    (h : Interleaves edits others both) (hedits : ∀ i ∈ edits, i.edit?.isSome = true)
    (hothers : ∀ i ∈ others, i.edit? = none) (x : Intake) :
    x.takeAll both = (x.takeAll edits).takeAll others := by
  induction h generalizing x with
  | nil => rfl
  | first _ ih => exact ih (List.forall_mem_cons.1 hedits).2 hothers _
  | second _ ih =>
    obtain ⟨hfirst, hrest⟩ := List.forall_mem_cons.1 hothers
    rw [takeAll_cons, takeAll_cons, ih hedits hrest, takeAll_take x hedits hfirst]

end Intake

/-- Pumping takes in what waits on the wire, counts each payload once, and leaves none. -/
theorem pump_eq (b : Bridge) (buffer : EditBuffer) :
    let emptied := { b with
      channel := { b.channel with messages := { b.channel.messages with queue := [] } } }
    let x := (Intake.mk emptied buffer .zero).takeAll (b.channel.messages.queue.map .payload)
    b.pump buffer = (x.bridge, x.buffer, x.stats) ∧
      x.stats.total = b.channel.messages.queue.length ∧ x.bridge.channel.messages.queue = [] := by
  intro emptied x
  have hpump : b.pump buffer = (x.bridge, x.buffer, x.stats) :=
    Intake.receiveAll_eq ⟨emptied, buffer, .zero⟩ _
  have hchannel := Live.channel_pump b buffer
  rw [hpump] at hchannel
  refine ⟨hpump, (Intake.total_takeAll_payloads _ _).trans (Nat.zero_add _), ?_⟩
  rw [show x.bridge.channel = _ from hchannel]

/-- **Edits and statuses do not interfere.** Edits of the sandbox on one hand, and pushes, statuses and
payloads that are no message on the other, come to the same in whatever way the two sequences are
interleaved: the same bridge, the same buffer, the same counts. The buffer holds what the edits alone
make of it, all of them recorded and counted; the bridge is what the rest alone makes of it.

A payload that is no message and one about an earlier push change nothing, and an edit is recorded
whatever was pushed. Pumping handles each payload that waits once, and none waits behind it. -/
theorem takeAll_of_interleaves {edits others first second : List Input}
    (hedits : ∀ i ∈ edits, i.edit?.isSome = true) (hothers : ∀ i ∈ others, i.edit? = none)
    (hfirst : Interleaves edits others first) (hsecond : Interleaves edits others second)
    (x : Intake) :
    (x.takeAll first = x.takeAll second ∧
      (x.takeAll first).buffer = (edits.filterMap Input.edit?).foldl EditBuffer.record x.buffer ∧
      (x.takeAll first).bridge = (x.takeAll others).bridge ∧
      (x.takeAll first).stats.edits = x.stats.edits + edits.length) ∧
    (∀ payload, message? payload = none →
      x.bridge.receiveRaw x.buffer payload = (x.bridge, x.buffer, none)) ∧
    (∀ payload message, message? payload = some message → x.bridge.isStale message = true →
      x.bridge.receiveRaw x.buffer payload = (x.bridge, x.buffer, some .stale)) ∧
    (∀ payload edit, reportedEdit? payload = some edit →
      x.bridge.receiveRaw x.buffer payload
        = (x.bridge, x.buffer.record edit, some .editRecorded)) ∧
    (x.bridge.pump x.buffer).2.2.total = x.bridge.channel.messages.queue.length ∧
    (x.bridge.pump x.buffer).1.channel.messages.queue = [] := by
  have hfirst' := Intake.takeAll_eq_of_interleaves hfirst hedits hothers x
  have hsecond' := Intake.takeAll_eq_of_interleaves hsecond hedits hothers x
  obtain ⟨hbridge, hbuffer, hcount⟩ := Intake.takeAll_of_no_edit (x.takeAll edits) x
    (by rw [Intake.takeAll_edits x hedits]) hothers
  obtain ⟨hpump, htotal, hqueue⟩ := pump_eq x.bridge x.buffer
  refine ⟨⟨hfirst'.trans hsecond'.symm, ?_, ?_, ?_⟩, fun payload => receiveRaw_of_malformed _ _,
    fun payload message => receiveRaw_of_stale _ _, fun payload edit => receiveRaw_of_edit _ _, ?_, ?_⟩
  · rw [hfirst', hbuffer, Intake.takeAll_edits x hedits]
  · rw [hfirst', hbridge]
  · rw [hfirst', hcount, Intake.takeAll_edits x hedits]
  · rw [hpump]
    exact htotal
  · rw [hpump]
    exact hqueue

/-- Two edits of one element, and between two pushes and the status of the second one a status of the
first and a payload that is no message. The edits come in the midst of the others, and behind them. -/
theorem takeAll_of_interleaves_stale :
    let edit (text : String) : Input :=
      .payload (InboundMessage.textEdit "p".toList 0 text.toList).toJson.write
    let status (revision : Nat) : Input := .payload (InboundMessage.rendered (some revision)).toJson.write
    let push (revision : Nat) : Input := .push ⟨"<p/>".toList, revision⟩
    let edits := [edit "a", edit "b"]
    let others := [push 1, push 2, status 1, .payload "p".toList, status 2]
    let first := [push 1, edit "a", push 2, status 1, edit "b", .payload "p".toList, status 2]
    let second := [push 1, push 2, status 1, .payload "p".toList, status 2, edit "a", edit "b"]
    let x : Intake := ⟨.connect, .empty, .zero⟩
    (Interleaves edits others first ∧ Interleaves edits others second) ∧
      x.takeAll first = x.takeAll second ∧
        (x.takeAll first).stats = ⟨2, 1, 2⟩ ∧ (x.takeAll first).bridge.status = .rendered := by
  intro edit status push edits others first second x
  have hfirst : Interleaves edits others first :=
    .second (.first (.second (.second (.first (.second (.second .nil))))))
  have hsecond : Interleaves edits others second :=
    .second (.second (.second (.second (.second (.first (.first .nil))))))
  have hedits : edits.all (·.edit?.isSome) = true := by decide +kernel
  have hothers : others.all (·.edit?.isNone) = true := by decide +kernel
  refine ⟨⟨hfirst, hsecond⟩, (takeAll_of_interleaves ?_ ?_ hfirst hsecond x).1.1, ?_, ?_⟩
  · exact List.all_eq_true.1 hedits
  · exact fun i hi => Option.isNone_iff_eq_none.1 (List.all_eq_true.1 hothers i hi)
  · decide +kernel
  · decide +kernel

end Bridge

end Retouch
