import PortfolioShell.Shell.OutputLog
import Mathlib.Data.List.Chain
import Mathlib.Data.List.DropRight
import Mathlib.Data.List.Induction
import Mathlib.Data.List.Range

/-! # Numbers in the log

The records of a log have consecutive numbers, the last of which was used last, whatever has been added and
cleared before. So the records since a number are those with a greater one, and a number that has been used
is never used again. What all this comes to for a new log is said by `numbers_after_changes`. -/

namespace PortfolioShell.OutputLog

def numbered (last : Nat) : List Payload → List Record
  | [] => []
  | p :: rest => ⟨last + 1, p⟩ :: numbered (last + 1) rest

/-- The numbers are consecutive and end at the number that was used last. -/
structure WellNumbered (log : OutputLog) : Prop where
  fits : log.records.length ≤ log.lastId
  ids : log.records.map Record.id =
    List.range' (log.lastId - log.records.length + 1) log.records.length

theorem payloads_numbered (last : Nat) (payloads : List Payload) :
    (numbered last payloads).map Record.payload = payloads := by
  induction payloads generalizing last with
  | nil => rfl
  | cons p rest ih => simp only [numbered, List.map_cons, ih]

theorem ids_numbered (last : Nat) (payloads : List Payload) :
    (numbered last payloads).map Record.id = List.range' (last + 1) payloads.length := by
  induction payloads generalizing last with
  | nil => rfl
  | cons p rest ih => simp only [numbered, List.map_cons, List.length_cons, List.range'_succ, ih]

theorem lt_id_of_mem_numbered {last : Nat} {payloads : List Payload} {r : Record}
    (member : r ∈ numbered last payloads) : last < r.id := by
  have listed := List.mem_map_of_mem (f := Record.id) member
  rw [ids_numbered, List.mem_range'_1] at listed
  omega

theorem records_pushAll (log : OutputLog) (payloads : List Payload) :
    (log.pushAll payloads).records = log.records ++ numbered log.lastId payloads := by
  induction payloads generalizing log with
  | nil => exact (List.append_nil _).symm
  | cons p rest ih =>
    rw [pushAll, List.foldl_cons, ← pushAll, ih, records_push, lastId_push, numbered,
      List.append_assoc, List.singleton_append]

/-! ### Well-numbered logs -/

theorem wellNumbered_empty : empty.WellNumbered := ⟨Nat.le_refl 0, rfl⟩

theorem WellNumbered.push {log : OutputLog} (h : log.WellNumbered) (p : Payload) :
    (log.push p).WellNumbered := by
  have fits := h.fits
  constructor
  · simp only [records_push, lastId_push, List.length_append, List.length_singleton]
    omega
  · have next : log.lastId + 1 - (log.records.length + 1) + 1 = log.lastId - log.records.length + 1 := by
      omega
    have last : log.lastId - log.records.length + 1 + log.records.length = log.lastId + 1 := by
      omega
    simp only [records_push, lastId_push, List.map_append, List.map_cons, List.map_nil,
      List.length_append, List.length_singleton, next, h.ids, List.range'_1_concat, last]

theorem WellNumbered.pushAll {log : OutputLog} (h : log.WellNumbered) (payloads : List Payload) :
    (log.pushAll payloads).WellNumbered := by
  induction payloads generalizing log with
  | nil => exact h
  | cons p rest ih => exact ih (h.push p)

theorem WellNumbered.clear (log : OutputLog) : log.clear.WellNumbered := ⟨Nat.zero_le log.lastId, rfl⟩

theorem WellNumbered.id_le {log : OutputLog} (h : log.WellNumbered) {r : Record} (member : r ∈ log.records) :
    r.id ≤ log.lastId := by
  have listed := List.mem_map_of_mem (f := Record.id) member
  have fits := h.fits
  rw [h.ids, List.mem_range'_1] at listed
  omega

theorem WellNumbered.pairwise {log : OutputLog} (h : log.WellNumbered) :
    (log.records.map Record.id).Pairwise (· < ·) := by
  rw [h.ids]
  exact List.pairwise_lt_range'

theorem WellNumbered.consecutive {log : OutputLog} (h : log.WellNumbered) :
    log.records.IsChain fun r next => next.id = r.id + 1 := by
  have ids := List.isChain_range' (log.lastId - log.records.length + 1) log.records.length 1
  rw [← h.ids, List.isChain_map] at ids
  exact ids

theorem WellNumbered.id_last {log : OutputLog} (h : log.WellNumbered) {r : Record}
    (last : r ∈ log.records.getLast?) : r.id = log.lastId := by
  have filled : log.records.length ≠ 0 := Nat.ne_of_gt (List.length_pos_of_mem (List.mem_of_mem_getLast? last))
  have ids : (log.records.map Record.id).getLast? = some r.id := by
    rw [List.getLast?_map, Option.mem_def.mp last, Option.map_some]
  rw [h.ids, List.getLast?_range', if_neg filled] at ids
  have number := Option.some.inj ids
  have fits := h.fits
  omega

/-! ### Changes of a log -/

inductive Change where
  | push (p : Payload)
  | clear

def Change.isPush : Change → Bool
  | push _ => true
  | clear => false

def changed (log : OutputLog) : List Change → OutputLog
  | [] => log
  | .push p :: rest => (log.push p).changed rest
  | .clear :: rest => log.clear.changed rest

/-- The numbers that some changes give out, also those of records that are dropped later. -/
def assigned (log : OutputLog) : List Change → List Nat
  | [] => []
  | .push p :: rest => (log.lastId + 1) :: (log.push p).assigned rest
  | .clear :: rest => log.clear.assigned rest

theorem changed_append (log : OutputLog) (cs ds : List Change) :
    log.changed (cs ++ ds) = (log.changed cs).changed ds := by
  induction cs generalizing log with
  | nil => rfl
  | cons c rest ih =>
    cases c with
    | push p => exact ih (log.push p)
    | clear => exact ih log.clear

theorem changed_map_push (log : OutputLog) (payloads : List Payload) :
    log.changed (payloads.map .push) = log.pushAll payloads := by
  induction payloads generalizing log with
  | nil => rfl
  | cons p rest ih => exact ih (log.push p)

theorem lastId_changed (log : OutputLog) (cs : List Change) :
    (log.changed cs).lastId = log.lastId + cs.countP Change.isPush := by
  induction cs generalizing log with
  | nil => rfl
  | cons c rest ih =>
    cases c with
    | push p =>
      rw [changed, ih, lastId_push, List.countP_cons_of_pos rfl]
      omega
    | clear => rw [changed, ih, lastId_clear, List.countP_cons_of_neg (by decide)]

theorem lastId_le_changed (log : OutputLog) (cs : List Change) : log.lastId ≤ (log.changed cs).lastId := by
  rw [lastId_changed]
  exact Nat.le_add_right _ _

theorem WellNumbered.changed {log : OutputLog} (h : log.WellNumbered) (cs : List Change) :
    (log.changed cs).WellNumbered := by
  induction cs generalizing log with
  | nil => exact h
  | cons c rest ih =>
    cases c with
    | push p => exact ih (h.push p)
    | clear => exact ih (.clear log)

/-- What has been added since the last clear is what the log holds. -/
theorem pushes_changed (cs : List Change) :
    (empty.changed cs).records.map (fun r => Change.push r.payload) = cs.rtakeWhile Change.isPush := by
  induction cs using List.reverseRecOn with
  | nil => rfl
  | append_singleton cs c ih =>
    rw [changed_append, List.rtakeWhile_concat]
    cases c with
    | push p =>
      have kept : (Change.push p).isPush = true := rfl
      rw [if_pos kept, ← ih, OutputLog.changed, OutputLog.changed, records_push, List.map_append, List.map_singleton]
    | clear => rfl

theorem assigned_le_lastId (log : OutputLog) (cs : List Change) :
    ∀ id ∈ log.assigned cs, id ≤ (log.changed cs).lastId := by
  induction cs generalizing log with
  | nil => exact List.forall_mem_nil _
  | cons c rest ih =>
    cases c with
    | push p => exact List.forall_mem_cons.mpr ⟨(log.push p).lastId_le_changed rest, ih (log.push p)⟩
    | clear => exact ih log.clear

/-! ### Records since a number -/

section PartitionPoint

variable {test : Record → Bool} {front back : List Record} (passed : ∀ r ∈ front, test r = true)
  (failed : ∀ r ∈ back, test r = false)

include passed failed

theorem any_getElem?_append (i : Nat) : (front ++ back)[i]?.any test = decide (i < front.length) := by
  by_cases early : i < front.length
  · rw [List.getElem?_append_left early, List.getElem?_eq_getElem early]
    simpa [early] using passed _ (List.getElem_mem early)
  · rw [List.getElem?_append_right (Nat.not_lt.mp early)]
    cases found : back[i - front.length]? with
    | none => simp [early]
    | some r => simpa [early] using failed r (List.mem_of_getElem? found)

/-- Halving finds the place where the records end that pass a test, if they come first. -/
theorem partitionPoint_append {low high : Nat} (above : low ≤ front.length) (below : front.length ≤ high) :
    partitionPoint test (front ++ back) low high = front.length := by
  have position := any_getElem?_append passed failed
  fun_induction partitionPoint test (front ++ back) low high with
  | case1 low high unfinished middle passes ih =>
    rw [position, decide_eq_true_eq] at passes
    exact ih passes below
  | case2 low high unfinished middle fails ih =>
    rw [position, decide_eq_true_eq] at fails
    exact ih above (Nat.not_lt.mp fails)
  | case3 low high finished => omega

end PartitionPoint

theorem filter_append_filter {records : List Record} (sorted : records.Pairwise (·.id < ·.id)) (id : Nat) :
    records.filter (·.id ≤ id) ++ records.filter (id < ·.id) = records := by
  induction records with
  | nil => rfl
  | cons r rest ih =>
    obtain ⟨first, sorted⟩ := List.pairwise_cons.mp sorted
    by_cases small : r.id ≤ id
    · rw [List.filter_cons_of_pos (by simpa using small), List.filter_cons_of_neg (by simpa using small),
        List.cons_append, ih sorted]
    · have greater : ∀ q ∈ rest, id < q.id := fun q member => (Nat.lt_of_not_le small).trans (first q member)
      have early : rest.filter (·.id ≤ id) = [] := List.filter_eq_nil_iff.mpr fun q member => by
        simpa using greater q member
      have late : rest.filter (id < ·.id) = rest := List.filter_eq_self.mpr fun q member => by
        simpa using greater q member
      rw [List.filter_cons_of_neg (by simpa using small), List.filter_cons_of_pos (by simpa using small), early, late,
        List.nil_append]

/-- The search finds all records with greater numbers, because the numbers are in order. -/
theorem WellNumbered.since_eq_filter {log : OutputLog} (h : log.WellNumbered) (id : Nat) :
    log.since id = log.records.filter (id < ·.id) := by
  have parts := filter_append_filter (List.pairwise_map.mp h.pairwise) id
  have passed : ∀ r ∈ log.records.filter (·.id ≤ id), decide (r.id ≤ id) = true := fun r member =>
    (List.mem_filter.mp member).2
  have failed : ∀ r ∈ log.records.filter (id < ·.id), decide (r.id ≤ id) = false := fun r member => by
    simpa using (List.mem_filter.mp member).2
  have cut := partitionPoint_append passed failed (Nat.zero_le _) (List.length_filter_le _ _)
  rw [parts] at cut
  calc log.since id
      = log.records.drop (log.records.filter (·.id ≤ id)).length := by rw [since, cut]
    _ = (log.records.filter (·.id ≤ id) ++ log.records.filter (id < ·.id)).drop
          (log.records.filter (·.id ≤ id)).length := by rw [parts]
    _ = log.records.filter (id < ·.id) := List.drop_left

theorem WellNumbered.since_pushAll {log : OutputLog} (h : log.WellNumbered) (payloads : List Payload) :
    (log.pushAll payloads).since log.lastId = numbered log.lastId payloads := by
  have old : ∀ r ∈ log.records, ¬ decide (log.lastId < r.id) = true := fun r hr => by
    simpa using h.id_le hr
  have new : ∀ r ∈ numbered log.lastId payloads, decide (log.lastId < r.id) = true := fun r hr =>
    decide_eq_true (lt_id_of_mem_numbered hr)
  rw [(h.pushAll payloads).since_eq_filter, records_pushAll, List.filter_append,
    List.filter_eq_nil_iff.mpr old, List.filter_eq_self.mpr new, List.nil_append]

/-! ### Any changes of a new log -/

/-- After any changes of a new log its last number is the count of all that was ever added. It holds what has been added
since the last clear, under consecutive numbers that end at the last one, so none is greater than that count and 64 bits
suffice for fewer than 2 ^ 64 additions. And for every number, whether a record has it, had it before a clear or will have it
later, the search finds the records with greater numbers and no others, in their order. -/
theorem numbers_after_changes (cs : List Change) :
    let log := empty.changed cs
    log.lastId = cs.countP Change.isPush ∧
    log.records.map (fun r => Change.push r.payload) = cs.rtakeWhile Change.isPush ∧
    (log.records.IsChain fun r next => next.id = r.id + 1) ∧
    (∀ r ∈ log.records.getLast?, r.id = log.lastId) ∧
    (∀ r ∈ log.records, r.id ≤ cs.countP Change.isPush) ∧
    ∀ id, log.since id = log.records.filter (id < ·.id) := by
  intro log
  have sound : log.WellNumbered := wellNumbered_empty.changed cs
  have count : log.lastId = cs.countP Change.isPush := (lastId_changed empty cs).trans (Nat.zero_add _)
  exact ⟨count, pushes_changed cs, sound.consecutive, fun r => sound.id_last,
    fun r member => (sound.id_le member).trans_eq count, sound.since_eq_filter⟩

end PortfolioShell.OutputLog
