import Retouch.Proofs.Site.Ranks

/-!
# What a counter answers

A counter is asked for addresses and for counts, in any order and for names in any spelling.
`Counter.run` makes such calls one after the other. What it answers to each of them is told by the names
that addresses were asked for before (`answers_of_run`): the number of those that are spellings of the
same name is the rank of the address, and it is the count. So no address is handed out twice.
-/

namespace Retouch

namespace Counter

/-! ## Calls -/

/-- What a counter can be asked. -/
inductive Call where
  /-- The address of the next element of a name. -/
  | next (tag : Text)
  /-- How many elements of a name were met. -/
  | count (tag : Text)
deriving DecidableEq

/-- What a counter gives back. -/
inductive Answer where
  | address (address : Address)
  | tally (n : Nat)
deriving DecidableEq

/-- The name that a call asks an address for. -/
def Call.met? : Call → Option Text
  | next tag => some tag
  | count _ => none

/-- The address that an answer hands out. -/
def Answer.address? : Answer → Option Address
  | address a => some a
  | tally _ => none

/-- The answer to a call, and the counter behind it. -/
def answer (counter : Counter) : Call → Answer × Counter
  | .next tag => (.address (counter.next tag).1, (counter.next tag).2)
  | .count tag => (.tally (counter.count tag), counter)

/-- The answers to some calls, and the counter behind them. -/
def run : Counter → List Call → List Answer × Counter
  | counter, [] => ([], counter)
  | counter, call :: rest =>
    let (first, counter) := counter.answer call
    let (others, counter) := counter.run rest
    (first :: others, counter)

/-- The names that some calls ask addresses for, in order. -/
def met (calls : List Call) : List Text := calls.filterMap Call.met?

/-- The addresses that some answers hand out, in order. -/
def handedOut (answers : List Answer) : List Address := answers.filterMap Answer.address?

/-- What is to be answered to a call if addresses were asked for some names before. -/
def expected (names : List Text) : Call → Answer
  | .next tag => .address (.of tag (occurrences tag names))
  | .count tag => .tally (occurrences tag names)

/-! ## One call -/

/-- Whether a counter has counted some names, in whatever order. -/
def Counted (counter : Counter) (names : List Text) : Prop :=
  ∀ tag, counter.count tag = occurrences tag names

theorem counted_empty : empty.Counted [] := fun _ => rfl

section Steps

variable {counter : Counter} {names : List Text}

/-- A call is answered by the names that were counted. -/
theorem Counted.answer (h : counter.Counted names) (call : Call) :
    (counter.answer call).1 = expected names call := by
  cases call with
  | next tag => exact congrArg (fun n => Answer.address (.of tag n)) (h tag)
  | count tag => exact congrArg Answer.tally (h tag)

/-- Behind a call the name that it asked an address for is counted, too. -/
theorem Counted.behind (h : counter.Counted names) (call : Call) :
    (counter.answer call).2.Counted (names ++ met [call]) := by
  intro tag
  cases call with
  | next name =>
    have hcount : (counter.next name).2.count tag
        = counter.count tag + if normaliseTag tag = normaliseTag name then 1 else 0 :=
      count_next counter name tag
    show (counter.next name).2.count tag = occurrences tag (names ++ [name])
    rw [hcount, h tag, occurrences_append, occurrences_cons, occurrences_nil, Nat.zero_add]
    simp only [eq_comm]
  | count name =>
    show counter.count tag = occurrences tag (names ++ [])
    rw [List.append_nil, h tag]

end Steps

/-! ## Many calls -/

theorem run_cons (counter : Counter) (call : Call) (calls : List Call) :
    counter.run (call :: calls)
      = ((counter.answer call).1 :: ((counter.answer call).2.run calls).1,
          ((counter.answer call).2.run calls).2) := rfl

@[simp] theorem met_nil : met [] = [] := rfl

theorem met_cons (call : Call) (calls : List Call) : met (call :: calls) = met [call] ++ met calls :=
  List.filterMap_append (l := [call])

/-- Each call is answered by the names that were counted and those that the calls before it asked
addresses for. -/
theorem Counted.run {counter : Counter} {names : List Text} (h : counter.Counted names)
    (calls : List Call) :
    (counter.run calls).1 = calls.mapIdx (fun i call => expected (names ++ met (calls.take i)) call) ∧
      (counter.run calls).2.Counted (names ++ met calls) := by
  induction calls generalizing counter names with
  | nil => exact ⟨rfl, by rw [met_nil, List.append_nil]; exact h⟩
  | cons call calls ih =>
    obtain ⟨hanswers, hcounted⟩ := ih (h.behind call)
    rw [run_cons, met_cons, ← List.append_assoc]
    refine ⟨?_, hcounted⟩
    rw [List.mapIdx_cons, hanswers, h.answer call]
    simp only [List.take_zero, List.take_succ_cons, met_nil, List.append_nil,
      met_cons call (calls.take _), List.append_assoc]

/-- The addresses that are handed out are those of a traversal which meets the names. -/
theorem handedOut_run (counter : Counter) (calls : List Call) :
    handedOut (counter.run calls).1 = RenderedNode.addressesOf counter (met calls) := by
  induction calls generalizing counter with
  | nil => rfl
  | cons call calls ih =>
    rw [run_cons, handedOut, List.filterMap_cons]
    cases call with
    | next tag =>
      show (counter.next tag).1 :: handedOut ((counter.next tag).2.run calls).1 = _
      rw [ih]
      rfl
    | count tag => exact ih counter

/-- **A counter ranks the elements of each name.** Each call is answered by the names that addresses were
asked for before it: an address has the normal spelling of its name and the number of those that have the
same normal spelling as its rank, and a count is that number. No address is handed out twice. Ranks stay
below the number of addresses, so they have 32 bits as long as that number has. -/
theorem answers_of_run (calls : List Call) :
    (empty.run calls).1 = calls.mapIdx (fun i call => expected (met (calls.take i)) call) ∧
      (∀ tag, (empty.run calls).2.count tag = occurrences tag (met calls)) ∧
      (handedOut (empty.run calls).1).Nodup ∧
      ∀ a ∈ handedOut (empty.run calls).1, a.index < (met calls).length := by
  obtain ⟨hanswers, hcounted⟩ := counted_empty.run calls
  rw [handedOut_run]
  exact ⟨hanswers, hcounted, RenderedNode.nodup_addressesOf .empty (met calls),
    fun _ => RenderedNode.index_lt_length⟩

/-- Spellings of one name with a capital and with blanks, one of them wide. -/
theorem answers_of_run_spellings :
    let calls : List Call := [.next " P".toList, .next "div".toList, .count "p".toList,
      .next "p\u3000".toList, .count "\tP".toList, .count "span".toList]
    (empty.run calls).1 = [.address (.of ['p'] 0), .address (.of "div".toList 0), .tally 1,
        .address (.of ['p'] 1), .tally 2, .tally 0] ∧
      (empty.run calls).2.count ['P'] = 2 ∧ (handedOut (empty.run calls).1).Nodup ∧
      .of ['p'] 1 ∈ handedOut (empty.run calls).1 ∧ (Address.of ['p'] 1).index < (met calls).length := by
  intro calls
  obtain ⟨hanswers, hcount, hnodup, hindex⟩ := answers_of_run calls
  have hmem : Address.of ['p'] 1 ∈ handedOut (empty.run calls).1 := by decide +kernel
  refine ⟨hanswers.trans (by decide +kernel), (hcount ['P']).trans (by decide +kernel), hnodup, hmem, ?_⟩
  exact hindex _ hmem

end Counter

end Retouch
