import StellarSplit.Lib.Grouping
import StellarSplit.Lib.Runs
import StellarSplit.Lib.Windows
import StellarSplit.Split.Types

/-!
# Aggregation of requests

Requests wait in a batch of bounded size until it is flushed into one group for each
target. The buffer is reused, so behind the pending requests it keeps old ones. The sum
of a group is checked only at the flush, and a batch with a sum that is too large stays
as it is.
-/

namespace StellarSplit.Split.Aggregation

open Exec Grouping Machine Windows

/-! ## Data -/

def maxBatch : ℕ := 32

inductive AggregationError where
  | invalidConfig | invalidAmount | batchClosed | overflow | empty
deriving DecidableEq, Repr

structure Request where
  id : ℕ
  target : ℕ
  amount : ℤ
deriving DecidableEq, Repr

def Request.empty : Request := ⟨0, 0, 0⟩

/-- Combined amount for one target. -/
structure Group where
  target : ℕ
  total : ℤ
  requests : ℕ
deriving DecidableEq, Repr

def Group.empty : Group := ⟨0, 0, 0⟩

/-- Result of flushing a batch. -/
structure Flush where
  groups : List Group
  groupCount : ℕ
  requestGroup : List UInt8
  requestCount : ℕ
  timedOut : Bool
deriving DecidableEq, Repr

namespace Flush

/-- The method `groups`. -/
def live (f : Flush) : List Group := f.groups.take f.groupCount

def groupOf (f : Flush) (index : ℕ) : Option ℕ :=
  if index < f.requestCount then some ((f.requestGroup[index]?).getD 0).toNat else none

end Flush

structure AggregationMetrics where
  requests : ℕ := 0
  batches : ℕ := 0
  groups : ℕ := 0
  timeouts : ℕ := 0
  rejected : ℕ := 0
deriving DecidableEq, Repr

/-- The buffer with its first `len` requests pending, all of them of positive amounts. -/
structure Aggregator where
  windowLedgers : ℕ
  maxSize : ℕ
  openedAt : ℕ
  requests : List Request
  len : ℕ
  metrics : AggregationMetrics
  maxSize_pos : 0 < maxSize
  maxSize_le : maxSize ≤ maxBatch
  requests_length : requests.length = maxBatch
  len_le : len ≤ maxSize
  positive : ∀ r ∈ requests.take len, 0 < r.amount

/-- An error is a result that keeps what was written; a trap is a counter that overflows. -/
abbrev AggregatorM (α : Type) := Call Aggregator SplitFault α

/-! ## Operations -/

def new (windowLedgers maxSize : ℕ) : Except AggregationError Aggregator :=
  if h : windowLedgers = 0 ∨ maxSize = 0 ∨ maxBatch < maxSize then .error .invalidConfig
  else .ok
    { windowLedgers := windowLedgers
      maxSize := maxSize
      openedAt := 0
      requests := List.replicate maxBatch Request.empty
      len := 0
      metrics := {}
      maxSize_pos := by omega
      maxSize_le := by omega
      requests_length := List.length_replicate
      len_le := Nat.zero_le _
      positive := by simp }

namespace Aggregator

/-- The requests that wait. -/
def pending (a : Aggregator) : List Request := a.requests.take a.len

def windowElapsed (a : Aggregator) (now : ℕ) : Prop := 0 < a.len ∧ a.windowLedgers ≤ now - a.openedAt

instance (a : Aggregator) (now : ℕ) : Decidable (a.windowElapsed now) := inferInstanceAs (Decidable (_ ∧ _))

def isDue (a : Aggregator) (now : ℕ) : Prop := 0 < a.len ∧ (a.maxSize ≤ a.len ∨ a.windowElapsed now)

instance (a : Aggregator) (now : ℕ) : Decidable (a.isDue now) := inferInstanceAs (Decidable (_ ∧ _))

theorem len_le_length (a : Aggregator) : a.len ≤ a.requests.length :=
  a.requests_length ▸ a.len_le.trans a.maxSize_le

theorem length_pending (a : Aggregator) : a.pending.length = a.len := List.length_take_of_le a.len_le_length

/-- The aggregator with other metrics. -/
def withMetrics (a : Aggregator) (metrics : AggregationMetrics) : Aggregator := { a with metrics := metrics }

/-- A request put behind the pending ones. -/
def queue (a : Aggregator) (request : Request) (now : ℕ) (hroom : a.len < a.maxSize)
    (hamount : 0 < request.amount) : Aggregator :=
  { a with
    openedAt := if a.len = 0 then now else a.openedAt
    requests := a.requests.set a.len request
    len := a.len + 1
    metrics := { a.metrics with requests := a.metrics.requests + 1 }
    requests_length := by rw [List.length_set, a.requests_length]
    len_le := hroom
    positive := by
      have hlength : a.len < a.requests.length := a.requests_length ▸ hroom.trans_le a.maxSize_le
      rw [List.take_add_one, List.take_set_of_le le_rfl, List.getElem?_set_self hlength]
      exact List.forall_mem_append.2 ⟨a.positive, List.forall_mem_singleton.2 hamount⟩ }

/-- The batch is empty, and the buffer as it was. -/
def reset (a : Aggregator) (metrics : AggregationMetrics) : Aggregator :=
  { a with
    len := 0
    metrics := metrics
    len_le := Nat.zero_le _
    positive := by simp }

end Aggregator

/-- The part of `add` that refuses. -/
def reject (e : AggregationError) : AggregatorM (Except AggregationError ℕ) := do
  let a ← get
  require (a.metrics.rejected + 1 ≤ u32Max) .overflow
  set (a.withMetrics { a.metrics with rejected := a.metrics.rejected + 1 })
  pure (.error e)

def add (request : Request) (now : ℕ) : AggregatorM (Except AggregationError ℕ) := do
  let a ← get
  if hamount : request.amount ≤ 0 then reject .invalidAmount
  else if hclosed : a.maxSize ≤ a.len ∨ a.windowElapsed now then reject .batchClosed
  else do
    require (a.metrics.requests + 1 ≤ u32Max) .overflow
    set (a.queue request now (not_le.1 (not_or.1 hclosed).1) (not_le.1 hamount))
    pure (.ok (a.len + 1))

/-- The local variables of the loop of `flush`. -/
structure Groups where
  groups : List Group := List.replicate maxBatch .empty
  groupCount : ℕ := 0
  requestGroup : List UInt8 := List.replicate maxBatch 0

/-- The group of a target, put behind the others when there is none. -/
def locate (st : Groups) (target : ℕ) : Groups × ℕ :=
  match (st.groups.take st.groupCount).findIdx? fun group => group.target = target with
  | some g => (st, g)
  | none =>
      ({ st with
        groups := st.groups.set st.groupCount ⟨target, 0, 0⟩
        groupCount := st.groupCount + 1 }, st.groupCount)

/-- One round of the loop. -/
def coalesce (st : Groups) (i : ℕ) (req : Request) : Except AggregationError Groups :=
  let (st, g) := locate st req.target
  let group := (st.groups[g]?).getD .empty
  match checkedAddI128 group.total req.amount with
  | none => .error .overflow
  | some total => .ok
      { st with
        groups := st.groups.set g { group with total := total, requests := group.requests + 1 }
        requestGroup := st.requestGroup.set i (UInt8.ofNat g) }

/-- The rounds from the `i`th request on. -/
def coalesceFrom : ℕ → List Request → Groups → Except AggregationError Groups
  | _, [], st => .ok st
  | i, req :: rest, st => do
      let st ← coalesce st i req
      coalesceFrom (i + 1) rest st

def flush (now : ℕ) : AggregatorM (Except AggregationError Flush) := do
  let a ← get
  if a.len = 0 then pure (.error .empty)
  else
    let timedOut := decide (a.windowElapsed now ∧ a.len < a.maxSize)
    match coalesceFrom 0 a.pending {} with
    | .error e => pure (.error e)
    | .ok st => do
        require (a.metrics.batches + 1 ≤ u32Max) .overflow
        require (a.metrics.groups + st.groupCount ≤ u32Max) .overflow
        require (timedOut = true → a.metrics.timeouts + 1 ≤ u32Max) .overflow
        set (a.reset { a.metrics with
          batches := a.metrics.batches + 1
          groups := a.metrics.groups + st.groupCount
          timeouts := if timedOut then a.metrics.timeouts + 1 else a.metrics.timeouts })
        pure (.ok
          { groups := st.groups, groupCount := st.groupCount, requestGroup := st.requestGroup,
            requestCount := a.len, timedOut := timedOut })

/-! ## The groups of a batch -/

/-- What the requests of a batch come to for a target. -/
def total (batch : List Request) (target : ℕ) : ℤ := weightOf Request.amount batch fun r => r.target = target

def countFor (batch : List Request) (target : ℕ) : ℕ := batch.countP fun r => r.target = target

def groupFor (batch : List Request) (target : ℕ) : Group := ⟨target, total batch target, countFor batch target⟩

/-- One group for each target, in the order in which the targets first occur. -/
def groupsOf (batch : List Request) : List Group := (keysOf Request.target batch).map (groupFor batch)

variable {rs rest batch : List Request} {req : Request} {st st' : Groups} {a b : Aggregator} {now target : ℕ}

theorem total_snoc (rs : List Request) (req : Request) (target : ℕ) :
    total (rs ++ [req]) target = total rs target + if req.target = target then req.amount else 0 :=
  weightOf_snoc req

theorem countFor_snoc (rs : List Request) (req : Request) (target : ℕ) :
    countFor (rs ++ [req]) target = countFor rs target + if req.target = target then 1 else 0 := by
  rw [countFor, List.countP_append, List.countP_singleton, countFor]
  simp only [decide_eq_true_eq]

theorem groupFor_snoc_of_ne (h : target ≠ req.target) : groupFor (rs ++ [req]) target = groupFor rs target := by
  rw [groupFor, groupFor, total_snoc, countFor_snoc, if_neg h.symm, if_neg h.symm, add_zero, add_zero]

theorem groupFor_snoc_self (rs : List Request) (req : Request) : groupFor (rs ++ [req]) req.target =
    ⟨req.target, total rs req.target + req.amount, countFor rs req.target + 1⟩ := by
  rw [groupFor, total_snoc, countFor_snoc, if_pos rfl, if_pos rfl]

theorem groupFor_of_notMem (h : target ∉ keysOf Request.target rs) : groupFor rs target = ⟨target, 0, 0⟩ := by
  have hnone : ∀ r ∈ rs, ¬r.target = target := fun r hr heq => h (mem_keysOf.2 ⟨r, hr, heq⟩)
  rw [groupFor, total, weightOf_eq_zero hnone, countFor, List.countP_eq_zero.2 (by simpa using hnone)]

theorem total_mono (hpos : ∀ r ∈ rs ++ rest, 0 < r.amount) (target : ℕ) :
    total rs target ≤ total (rs ++ rest) target := by
  have hrest : 0 ≤ total rest target := by
    refine List.sum_nonneg fun n hn => ?_
    obtain ⟨r, hr, rfl⟩ := List.mem_map.1 hn
    exact (hpos r (List.mem_append_right _ (List.mem_filter.1 hr).1)).le
  rw [total, total, weightOf_append]
  exact le_add_of_nonneg_right hrest

theorem total_nonneg (hpos : ∀ r ∈ rs, 0 < r.amount) (target : ℕ) : 0 ≤ total rs target := by
  have hle : total [] target ≤ total ([] ++ rs) target := total_mono hpos target
  exact hle

/-! ## The loop -/

/-- The groups in use are these. -/
structure Tabled (groups : List Group) (st : Groups) : Prop where
  live : st.groups.take st.groupCount = groups
  count : st.groupCount = groups.length
  room : st.groups.length = maxBatch

theorem Tabled.getElem? {groups : List Group} (h : Tabled groups st) {g : ℕ} (hg : g < groups.length) :
    st.groups[g]? = groups[g]? := by
  rw [← h.live, List.getElem?_take_of_lt (h.count ▸ hg)]

/-- The search for a target finds its place, or gives it one with an empty group. -/
theorem locate_spec (req : Request) (h : Tabled ((keysOf Request.target rs).map (groupFor rs)) st)
    (hroom : rs.length < maxBatch) :
    ∃ st', locate st req.target = (st', place Request.target (rs ++ [req]) req.target) ∧
      Tabled ((keysOf Request.target (rs ++ [req])).map (groupFor rs)) st' ∧ st'.requestGroup = st.requestGroup := by
  have hsearch : ((st.groups.take st.groupCount).findIdx? fun group => group.target = req.target) =
      if req.target ∈ keysOf Request.target rs then some (place Request.target rs req.target) else none := by
    rw [h.live, List.findIdx?_map, ← findIdx?_keysOf]
    rfl
  unfold locate
  rw [hsearch]
  by_cases hmem : req.target ∈ keysOf Request.target rs
  · rw [if_pos hmem, place_append hmem, keysOf_snoc_of_mem hmem]
    exact ⟨st, rfl, h, rfl⟩
  · rw [if_neg hmem, place_snoc_of_notMem hmem, keysOf_snoc_of_notMem hmem, List.map_append, List.map_singleton,
      groupFor_of_notMem hmem]
    have hcount : st.groupCount = (keysOf Request.target rs).length := by rw [h.count, List.length_map]
    have hlength : st.groupCount < st.groups.length := by
      rw [h.room, hcount]
      exact (length_keysOf_le _ _).trans_lt hroom
    refine ⟨_, Prod.ext rfl hcount, ⟨?_, ?_, ?_⟩, rfl⟩
    · dsimp only
      rw [List.take_add_one, List.take_set_of_le le_rfl, List.getElem?_set_self hlength, h.live]
      rfl
    · dsimp only
      rw [List.length_append, ← h.count, List.length_singleton]
    · dsimp only
      rw [List.length_set, h.room]

/-- The state of the loop after these requests. -/
structure Grouped (rs : List Request) (st : Groups) : Prop where
  tabled : Tabled (groupsOf rs) st
  length : st.requestGroup.length = maxBatch
  mapped : (st.requestGroup.take rs.length).map UInt8.toNat = rs.map fun r => place Request.target rs r.target

theorem grouped_nil : Grouped [] {} := ⟨⟨rfl, rfl, List.length_replicate⟩, List.length_replicate, rfl⟩

/-- A round adds its request to the group of its target, or finds that the sum is too large. -/
theorem coalesce_spec (h : Grouped rs st) (hroom : rs.length < maxBatch) (hpos : ∀ r ∈ rs ++ [req], 0 < r.amount) :
    (total (rs ++ [req]) req.target ≤ i128Max ∧
        ∃ st', coalesce st rs.length req = .ok st' ∧ Grouped (rs ++ [req]) st') ∨
      i128Max < total (rs ++ [req]) req.target ∧ coalesce st rs.length req = .error .overflow := by
  obtain ⟨st', hlocate, htabled, hmap⟩ := locate_spec req h.tabled hroom
  have hmem : req.target ∈ keysOf Request.target (rs ++ [req]) := mem_keysOf.2 ⟨req, by simp, rfl⟩
  have hplace := place_lt hmem
  have hget : st'.groups[place Request.target (rs ++ [req]) req.target]? = some (groupFor rs req.target) := by
    rw [htabled.getElem? (by rwa [List.length_map]), List.getElem?_map, getElem?_place hmem, Option.map_some]
  have hsum : total (rs ++ [req]) req.target = total rs req.target + req.amount := by
    rw [total_snoc, if_pos rfl]
  have hnonneg := total_nonneg hpos req.target
  have hround : coalesce st rs.length req =
      match checkedAddI128 (total rs req.target) req.amount with
      | none => .error .overflow
      | some total => .ok
          { st' with
            groups := st'.groups.set (place Request.target (rs ++ [req]) req.target)
              ⟨req.target, total, countFor rs req.target + 1⟩
            requestGroup := st'.requestGroup.set rs.length
              (UInt8.ofNat (place Request.target (rs ++ [req]) req.target)) } := by
    rw [coalesce, hlocate]
    dsimp only
    rw [hget]
    rfl
  rw [hround, hsum]
  rw [hsum] at hnonneg
  by_cases hfits : total rs req.target + req.amount ≤ i128Max
  · have hadd : checkedAddI128 (total rs req.target) req.amount = some (total rs req.target + req.amount) :=
      if_pos ⟨by unfold i128Min; omega, hfits⟩
    rw [hadd]
    refine .inl ⟨hfits, _, rfl, ⟨?_, ?_, ?_⟩, ?_, ?_⟩
    · dsimp only
      rw [List.take_set, htabled.live, groupsOf,
        map_keysOf_update hmem (f := groupFor rs) fun j hj => groupFor_snoc_of_ne hj, groupFor_snoc_self]
    · dsimp only
      rw [htabled.count, groupsOf, List.length_map, List.length_map]
    · dsimp only
      rw [List.length_set, htabled.room]
    · dsimp only
      rw [List.length_set, hmap, h.length]
    · dsimp only
      have hlength : rs.length < st.requestGroup.length := h.length ▸ hroom
      have hsmall : place Request.target (rs ++ [req]) req.target < 256 := by
        have hle := length_keysOf_le Request.target (rs ++ [req])
        rw [List.length_append, List.length_singleton] at hle
        unfold maxBatch at hroom
        omega
      have hkept : rs.map (fun r => place Request.target (rs ++ [req]) r.target) =
          rs.map fun r => place Request.target rs r.target :=
        List.map_congr_left fun r hr => place_append (mem_keysOf.2 ⟨r, hr, rfl⟩)
      rw [hmap, List.length_append, List.length_singleton, List.take_add_one, List.take_set_of_le le_rfl,
        List.getElem?_set_self hlength, List.map_append, List.map_append, h.mapped, hkept]
      simp [UInt8.toNat_ofNat', Nat.mod_eq_of_lt hsmall]
  · have hadd : checkedAddI128 (total rs req.target) req.amount = none := if_neg fun hin => hfits hin.2
    rw [hadd]
    exact .inr ⟨not_le.1 hfits, rfl⟩

/-- The loop groups the requests, unless the sum for some target is too large. -/
theorem coalesceFrom_spec (h : Grouped rs st) (hroom : rs.length + rest.length ≤ maxBatch)
    (hpos : ∀ r ∈ rs ++ rest, 0 < r.amount) (hsmall : ∀ target, total rs target ≤ i128Max) :
    ((∀ target, total (rs ++ rest) target ≤ i128Max) ∧
        ∃ st', coalesceFrom rs.length rest st = .ok st' ∧ Grouped (rs ++ rest) st') ∨
      (∃ target, i128Max < total (rs ++ rest) target) ∧ coalesceFrom rs.length rest st = .error .overflow := by
  induction rest generalizing rs st with
  | nil =>
      rw [List.append_nil]
      exact .inl ⟨hsmall, st, rfl, h⟩
  | cons req rest ih =>
      have hsplit : rs ++ req :: rest = (rs ++ [req]) ++ rest := by simp
      rw [hsplit] at hpos ⊢
      rw [List.length_cons] at hroom
      have hfirst : ∀ r ∈ rs ++ [req], 0 < r.amount := fun r hr => hpos r (List.mem_append_left _ hr)
      rcases coalesce_spec h (by omega) hfirst with ⟨hfits, st', hrun, hnext⟩ | ⟨hover, hrun⟩
      · have hsmall' : ∀ target, total (rs ++ [req]) target ≤ i128Max := by
          intro target
          by_cases htarget : req.target = target
          · exact htarget ▸ hfits
          · rw [total_snoc, if_neg htarget, add_zero]
            exact hsmall target
        have hlength : (rs ++ [req]).length = rs.length + 1 := by simp
        have hgo : coalesceFrom rs.length (req :: rest) st = coalesceFrom (rs ++ [req]).length rest st' := by
          rw [coalesceFrom, hrun, hlength]
          rfl
        rw [hgo]
        exact ih hnext (by omega) hpos hsmall'
      · refine .inr ⟨⟨req.target, hover.trans_le (total_mono hpos _)⟩, ?_⟩
        rw [coalesceFrom, hrun]
        rfl

/-! ## One call -/

theorem pending_queue (a : Aggregator) (request : Request) (now : ℕ) (hroom : a.len < a.maxSize)
    (hamount : 0 < request.amount) : (a.queue request now hroom hamount).pending = a.pending ++ [request] := by
  have hlength : a.len < a.requests.length := a.requests_length ▸ hroom.trans_le a.maxSize_le
  change (a.requests.set a.len request).take (a.len + 1) = a.requests.take a.len ++ [request]
  rw [List.take_add_one, List.take_set_of_le le_rfl, List.getElem?_set_self hlength]
  rfl

theorem reject_ok {e : AggregationError} {result : Except AggregationError ℕ} (hrun : reject e a = .ok (result, b)) :
    result = .error e ∧ b = a.withMetrics { a.metrics with rejected := a.metrics.rejected + 1 } := by
  rw [reject, get_bind, require_bind] at hrun
  obtain ⟨_, u, hset, hlast⟩ := bind_ok.1 hrun.2
  obtain ⟨rfl, rfl⟩ := pure_ok.1 hlast
  exact ⟨rfl, (set_ok.1 hset).symm⟩

/-- A request is put behind the others, or refused and counted as such. -/
theorem add_ok {request : Request} {result : Except AggregationError ℕ} (hrun : add request now a = .ok (result, b)) :
    (∃ hroom hamount, result = .ok (a.len + 1) ∧ b = a.queue request now hroom hamount) ∨
      ∃ e, result = .error e ∧ b = a.withMetrics { a.metrics with rejected := a.metrics.rejected + 1 } := by
  rw [add, get_bind] at hrun
  split_ifs at hrun with hamount hclosed
  · exact .inr ⟨_, reject_ok hrun⟩
  · exact .inr ⟨_, reject_ok hrun⟩
  · rw [require_bind] at hrun
    obtain ⟨_, u, hset, hlast⟩ := bind_ok.1 hrun.2
    obtain ⟨rfl, rfl⟩ := pure_ok.1 hlast
    exact .inl ⟨_, _, rfl, (set_ok.1 hset).symm⟩

theorem add_run {request : Request} (hamount : 0 < request.amount) (hopen : ¬a.isDue now)
    (hcount : a.metrics.requests + 1 ≤ u32Max) : ∃ b, add request now a = .ok (.ok (a.len + 1), b) := by
  have hclosed : ¬(a.maxSize ≤ a.len ∨ a.windowElapsed now) := by
    intro hclosed
    refine hopen ⟨?_, hclosed⟩
    rcases hclosed with hfull | helapsed
    · exact a.maxSize_pos.trans_le hfull
    · exact helapsed.1
  refine ⟨a.queue request now (not_le.1 (not_or.1 hclosed).1) hamount, get_bind.2 ?_⟩
  rw [dif_neg (not_le.2 hamount), dif_neg hclosed]
  exact require_bind.2 ⟨hcount, bind_ok.2 ⟨(), _, set_ok.2 rfl, pure_ok.2 ⟨rfl, rfl⟩⟩⟩

/-- A flush answers a batch: one group for each target, in the order in which they first occur, with the
sum and the number of its requests, and every request is led to the group of its target. -/
structure Serves (batch : List Request) (f : Flush) : Prop where
  nonempty : batch ≠ []
  groups : f.live = groupsOf batch
  distinct : (f.live.map Group.target).Nodup
  count : f.requestCount = batch.length
  mapped : ∀ i r, batch[i]? = some r → ∃ g, f.groupOf i = some g ∧ f.live[g]? = some (groupFor batch r.target)
  others : ∀ i, batch.length ≤ i → f.groupOf i = none

theorem Grouped.serves {timedOut : Bool} (h : Grouped batch st) (hbatch : batch ≠ []) :
    Serves batch
      { groups := st.groups, groupCount := st.groupCount, requestGroup := st.requestGroup,
        requestCount := batch.length, timedOut := timedOut } where
  nonempty := hbatch
  groups := h.tabled.live
  distinct := by
    have htargets : (groupsOf batch).map Group.target = keysOf Request.target batch := by
      rw [groupsOf, List.map_map]
      exact List.map_id _
    change ((st.groups.take st.groupCount).map Group.target).Nodup
    rw [h.tabled.live, htargets]
    exact nodup_keysOf _ _
  count := rfl
  mapped := by
    intro i r hr
    have hi : i < batch.length := (List.getElem?_eq_some_iff.1 hr).1
    have hmem : r.target ∈ keysOf Request.target batch := mem_keysOf.2 ⟨r, List.mem_of_getElem? hr, rfl⟩
    have hmap : ((st.requestGroup.take batch.length).map UInt8.toNat)[i]? =
        some (place Request.target batch r.target) := by
      rw [h.mapped, List.getElem?_map, hr, Option.map_some]
    rw [List.getElem?_map, List.getElem?_take_of_lt hi] at hmap
    obtain ⟨byte, hbyte, hplace⟩ := Option.map_eq_some_iff.1 hmap
    refine ⟨place Request.target batch r.target, ?_, ?_⟩
    · rw [Flush.groupOf, if_pos hi]
      dsimp only
      rw [hbyte, Option.getD_some, hplace]
    · change (st.groups.take st.groupCount)[_]? = _
      rw [h.tabled.live, groupsOf, List.getElem?_map, getElem?_place hmem, Option.map_some]
  others i hi := if_neg (not_lt.2 hi)

/-- The sum of no target is too large. -/
def Fits (batch : List Request) : Prop := ∀ target, total batch target ≤ i128Max

/-- The counters of a flush have room. -/
def CountersFit (a : Aggregator) (now : ℕ) : Prop :=
  a.metrics.batches + 1 ≤ u32Max ∧ a.metrics.groups + (groupsOf a.pending).length ≤ u32Max ∧
    (a.windowElapsed now ∧ a.len < a.maxSize → a.metrics.timeouts + 1 ≤ u32Max)

theorem coalesceFrom_pending (a : Aggregator) :
    (Fits a.pending ∧ ∃ st, coalesceFrom 0 a.pending {} = .ok st ∧ Grouped a.pending st) ∨
      ¬Fits a.pending ∧ coalesceFrom 0 a.pending {} = .error .overflow := by
  have hroom : ([] : List Request).length + a.pending.length ≤ maxBatch := by
    rw [List.length_nil, Nat.zero_add, a.length_pending]
    exact a.len_le.trans a.maxSize_le
  have hzero : ∀ target, total [] target ≤ i128Max := fun _ => show (0 : ℤ) ≤ i128Max by decide
  rcases coalesceFrom_spec grouped_nil hroom a.positive hzero with hok | ⟨⟨target, hover⟩, herror⟩
  · exact .inl hok
  · exact .inr ⟨fun hfits => absurd (hfits target) (not_le.2 hover), herror⟩

theorem pending_eq_nil : a.pending = [] ↔ a.len = 0 := by
  rw [← a.length_pending, List.length_eq_zero_iff]

/-- A flush answers the pending requests, or it is an error that changes nothing. -/
theorem flush_ok {result : Except AggregationError Flush} (hrun : flush now a = .ok (result, b)) :
    (∃ f, result = .ok f ∧ Serves a.pending f ∧ Fits a.pending ∧ CountersFit a now ∧ b.len = 0 ∧
        b.metrics.requests = a.metrics.requests) ∨
      ∃ e, result = .error e ∧ b = a := by
  rw [flush, get_bind] at hrun
  split_ifs at hrun with hempty
  · obtain ⟨rfl, rfl⟩ := pure_ok.1 hrun
    exact .inr ⟨_, rfl, rfl⟩
  · dsimp only at hrun
    rcases coalesceFrom_pending a with ⟨hfits, st, hst, hgrouped⟩ | ⟨-, herror⟩
    · rw [hst] at hrun
      dsimp only at hrun
      simp only [require_bind, decide_eq_true_eq] at hrun
      obtain ⟨hbatches, hgroups, htimeouts, hrun⟩ := hrun
      obtain ⟨_, u, hset, hlast⟩ := bind_ok.1 hrun
      obtain ⟨rfl, rfl⟩ := pure_ok.1 hlast
      have hb := set_ok.1 hset
      subst hb
      rw [hgrouped.tabled.count] at hgroups
      have hserves : Serves a.pending ⟨st.groups, st.groupCount, st.requestGroup, a.pending.length,
          decide (a.windowElapsed now ∧ a.len < a.maxSize)⟩ :=
        hgrouped.serves fun hnil => hempty (pending_eq_nil.1 hnil)
      rw [a.length_pending] at hserves
      exact .inl ⟨_, rfl, hserves, hfits, ⟨hbatches, hgroups, htimeouts⟩, rfl, rfl⟩
    · rw [herror] at hrun
      obtain ⟨rfl, rfl⟩ := pure_ok.1 hrun
      exact .inr ⟨_, rfl, rfl⟩

theorem flush_run (hpending : a.pending ≠ []) (hfits : Fits a.pending) (hcounters : CountersFit a now) :
    ∃ f b, flush now a = .ok (.ok f, b) := by
  obtain ⟨hbatches, hgroups, htimeouts⟩ := hcounters
  rcases coalesceFrom_pending a with ⟨-, st, hst, hgrouped⟩ | ⟨hnot, -⟩
  · rw [← hgrouped.tabled.count] at hgroups
    simp only [flush, get_bind, if_neg (mt pending_eq_nil.2 hpending), hst, require_bind, decide_eq_true_eq]
    exact ⟨_, _, hbatches, hgroups, htimeouts, bind_ok.2 ⟨(), _, set_ok.2 rfl, pure_ok.2 ⟨rfl, rfl⟩⟩⟩
  · exact absurd hfits hnot

theorem flush_overflow (hpending : a.pending ≠ []) (hnot : ¬Fits a.pending) :
    flush now a = .ok (.error .overflow, a) := by
  rcases coalesceFrom_pending a with ⟨hfits, -⟩ | ⟨-, herror⟩
  · exact absurd hfits hnot
  · refine get_bind.2 ?_
    rw [if_neg (mt pending_eq_nil.2 hpending)]
    dsimp only
    rw [herror]
    rfl

/-! ## Runs -/

inductive AggregatorCall where
  | add (request : Request) (now : ℕ)
  | flush (now : ℕ)
deriving DecidableEq

inductive Answer where
  | queued (pending : ℕ)
  | flushed (f : Flush)
deriving DecidableEq

def aggregatorStep : AggregatorCall → AggregatorM (Except AggregationError Answer)
  | .add request now => (Except.map .queued) <$> add request now
  | .flush now => (Except.map .flushed) <$> flush now

/-- The requests that were accepted, in their order. -/
def accepted (rs : List (AggregatorCall × Except AggregationError Answer)) : List Request :=
  rs.filterMap fun
    | (.add request _, .ok _) => some request
    | _ => none

/-- The flushes that succeeded, in their order. -/
def flushes (rs : List (AggregatorCall × Except AggregationError Answer)) : List Flush :=
  rs.filterMap fun
    | (_, .ok (.flushed f)) => some f
    | _ => none

variable {log : List (AggregatorCall × Except AggregationError Answer)} {call : AggregatorCall}
  {windowLedgers maxSize : ℕ}

theorem accepted_snoc (x : AggregatorCall × Except AggregationError Answer) :
    accepted (log ++ [x]) = accepted log ++ accepted [x] := List.filterMap_append

theorem flushes_snoc (x : AggregatorCall × Except AggregationError Answer) :
    flushes (log ++ [x]) = flushes log ++ flushes [x] := List.filterMap_append

/-- A call accepts a request, answers the pending ones, or is an error that leaves them. -/
theorem aggregatorStep_ok {result : Except AggregationError Answer} (hrun : aggregatorStep call a = .ok (result, b)) :
    (∃ request now hroom hamount, call = .add request now ∧ result = .ok (.queued (a.len + 1)) ∧
        b = a.queue request now hroom hamount) ∨
      (∃ now f, call = .flush now ∧ result = .ok (.flushed f) ∧ flush now a = .ok (.ok f, b)) ∨
      ∃ e, result = .error e ∧ b.pending = a.pending ∧ b.len = a.len ∧
        b.metrics = { a.metrics with rejected := b.metrics.rejected } := by
  cases call with
  | add request now =>
      obtain ⟨answer, hadd, rfl⟩ := map_ok.1 hrun
      obtain ⟨hroom, hamount, rfl, rfl⟩ | ⟨e, rfl, rfl⟩ := add_ok hadd
      · exact .inl ⟨request, now, hroom, hamount, rfl, rfl, rfl⟩
      · exact .inr (.inr ⟨e, rfl, rfl, rfl, rfl⟩)
  | flush now =>
      obtain ⟨answer, hflush, rfl⟩ := map_ok.1 hrun
      cases answer with
      | ok f => exact .inr (.inl ⟨now, f, rfl, rfl, hflush⟩)
      | error e =>
          obtain ⟨f, hf, -⟩ | ⟨_, -, rfl⟩ := flush_ok hflush
          · cases hf
          · exact .inr (.inr ⟨e, rfl, rfl, rfl, rfl⟩)

/-- The accepted requests are the batches of the flushes, each answered by its flush, and the pending
ones. -/
def Partitioned (log : List (AggregatorCall × Except AggregationError Answer)) (a : Aggregator) : Prop :=
  (∃ batches, accepted log = batches.flatten ++ a.pending ∧ List.Forall₂ Serves batches (flushes log)) ∧
    a.metrics.requests = ((flushes log).map Flush.requestCount).sum + a.len

theorem new_ok (h : new windowLedgers maxSize = .ok a) : a.pending = [] ∧ a.metrics = {} := by
  unfold new at h
  split_ifs at h
  obtain rfl := Except.ok.inj h
  exact ⟨rfl, rfl⟩

theorem Partitioned.step {result : Except AggregationError Answer} (h : Partitioned log a)
    (hrun : aggregatorStep call a = .ok (result, b)) : Partitioned (log ++ [(call, result)]) b := by
  obtain ⟨⟨batches, hsplit, hserved⟩, hcount⟩ := h
  obtain ⟨request, now, hroom, hamount, rfl, rfl, rfl⟩ | ⟨now, f, rfl, rfl, hflush⟩ | ⟨e, rfl, hpending, hlen, hmetrics⟩ :=
    aggregatorStep_ok hrun
  · have haccepted : accepted [(AggregatorCall.add request now, Except.ok (Answer.queued (a.len + 1)))] =
        [request] := rfl
    have hflushes : flushes [(AggregatorCall.add request now, Except.ok (Answer.queued (a.len + 1)))] = [] := rfl
    refine ⟨⟨batches, ?_, ?_⟩, ?_⟩
    · rw [accepted_snoc, haccepted, hsplit, pending_queue, List.append_assoc]
    · rwa [flushes_snoc, hflushes, List.append_nil]
    · rw [flushes_snoc, hflushes, List.append_nil]
      change a.metrics.requests + 1 = _ + (a.len + 1)
      rw [hcount, Nat.add_assoc]
  · obtain ⟨f', hf, hserves, -, -, hempty, hrequests⟩ | ⟨e, he, -⟩ := flush_ok hflush
    · obtain rfl := Except.ok.inj hf
      have haccepted : accepted [(AggregatorCall.flush now, Except.ok (Answer.flushed f))] = [] := rfl
      have hflushes : flushes [(AggregatorCall.flush now, Except.ok (Answer.flushed f))] = [f] := rfl
      refine ⟨⟨batches ++ [a.pending], ?_, ?_⟩, ?_⟩
      · rw [accepted_snoc, haccepted, hsplit, pending_eq_nil.2 hempty, List.flatten_append]
        simp
      · rw [flushes_snoc, hflushes]
        exact List.rel_append hserved (.cons hserves .nil)
      · rw [flushes_snoc, hflushes, hrequests, hempty, hcount, List.map_append, List.sum_append, List.map_singleton,
          List.sum_singleton, hserves.count, a.length_pending, Nat.add_zero]
    · cases he
  · have haccepted : accepted [(call, .error e)] = [] := by cases call <;> rfl
    have hflushes : flushes [(call, .error e)] = [] := rfl
    refine ⟨⟨batches, ?_, ?_⟩, ?_⟩
    · rw [accepted_snoc, haccepted, hsplit, hpending, List.append_nil]
    · rwa [flushes_snoc, hflushes, List.append_nil]
    · rw [flushes_snoc, hflushes, List.append_nil, hmetrics, hlen]
      exact hcount

theorem partitioned_run (hnew : new windowLedgers maxSize = .ok a) (calls : List AggregatorCall) :
    Partitioned (returned aggregatorStep a calls) (runAll aggregatorStep a calls) := by
  obtain ⟨hempty, hzero⟩ := new_ok hnew
  have hstart : Partitioned [] a := by
    refine ⟨⟨[], hempty.symm, .nil⟩, ?_⟩
    rw [hzero, pending_eq_nil.1 hempty]
    rfl
  exact runAll_returned hstart (fun _ _ _ _ _ h _ hrun => h.step hrun) (along_true aggregatorStep a calls)

/-- Whatever was added and flushed, the accepted requests are split into the batches of the flushes and
the pending ones, each flush answers its batch, and an error leaves the pending requests. -/
theorem aggregation_law (hnew : new windowLedgers maxSize = .ok a) (calls : List AggregatorCall) :
    Partitioned (returned aggregatorStep a calls) (runAll aggregatorStep a calls) ∧
      ∀ call e b, aggregatorStep call (runAll aggregatorStep a calls) = .ok (.error e, b) →
        b.pending = (runAll aggregatorStep a calls).pending := by
  refine ⟨partitioned_run hnew calls, fun call e b hrun => ?_⟩
  obtain ⟨_, _, _, _, -, hresult, -⟩ | ⟨_, _, -, hresult, -⟩ | ⟨_, -, hpending, -⟩ := aggregatorStep_ok hrun
  · cases hresult
  · cases hresult
  · exact hpending

def sampleAggregator : Aggregator where
  windowLedgers := 5
  maxSize := 8
  openedAt := 0
  requests := List.replicate maxBatch .empty
  len := 0
  metrics := {}
  maxSize_pos := by decide
  maxSize_le := by decide
  requests_length := rfl
  len_le := by decide
  positive := by simp

/-- Three requests for two targets and a flush, one more request, and one that comes too late. -/
def aggregatorCalls : List AggregatorCall :=
  [.add ⟨1, 100, 10⟩ 0, .add ⟨2, 200, 5⟩ 1, .add ⟨3, 100, 7⟩ 2, .flush 3, .add ⟨4, 200, 1⟩ 10, .add ⟨5, 200, 1⟩ 15]

theorem aggregation_law_sample :
    (flushes (returned aggregatorStep sampleAggregator aggregatorCalls)).map Flush.live =
        [[⟨100, 17, 2⟩, ⟨200, 5, 1⟩]] ∧
      Partitioned (returned aggregatorStep sampleAggregator aggregatorCalls)
        (runAll aggregatorStep sampleAggregator aggregatorCalls) ∧
      ∀ call e b, aggregatorStep call (runAll aggregatorStep sampleAggregator aggregatorCalls) = .ok (.error e, b) →
        b.pending = (runAll aggregatorStep sampleAggregator aggregatorCalls).pending :=
  ⟨by decide +kernel, aggregation_law (show new 5 8 = .ok sampleAggregator from rfl) aggregatorCalls⟩

/-! ## Emptying a batch -/

/-- A flush succeeds on a batch whose sums fit, and opens it again; otherwise nothing changes. -/
structure Empties (a : Aggregator) : Prop where
  succeeds_iff : ∀ now, (∃ f b, flush now a = .ok (.ok f, b)) ↔
    a.pending ≠ [] ∧ Fits a.pending ∧ CountersFit a now
  stuck : ∀ now, a.pending ≠ [] → ¬Fits a.pending → flush now a = .ok (.error .overflow, a)
  reopened : ∀ now f b, flush now a = .ok (.ok f, b) → b.pending = [] ∧ ∀ request later, 0 < request.amount →
    b.metrics.requests + 1 ≤ u32Max → ∃ c, add request later b = .ok (.ok 1, c)

theorem Aggregator.empties (a : Aggregator) : Empties a where
  succeeds_iff now := by
    constructor
    · rintro ⟨f, b, hrun⟩
      obtain ⟨_, -, hserves, hfits, hcounters, -⟩ | ⟨_, he, -⟩ := flush_ok hrun
      · exact ⟨hserves.nonempty, hfits, hcounters⟩
      · cases he
    · rintro ⟨hpending, hfits, hcounters⟩
      exact flush_run hpending hfits hcounters
  stuck _ hpending hnot := flush_overflow hpending hnot
  reopened now f b hrun := by
    obtain ⟨_, -, -, -, -, hempty, -⟩ | ⟨_, he, -⟩ := flush_ok hrun
    · refine ⟨pending_eq_nil.2 hempty, fun request later hamount hcount => ?_⟩
      have hopen : ¬b.isDue later := fun hdue => absurd hdue.1 (by omega)
      have hadd := add_run hamount hopen hcount
      rwa [hempty] at hadd
    · cases he

/-- The counters of the flushes stay at zero until one succeeds. -/
theorem counters_run (hnew : new windowLedgers maxSize = .ok a) (calls : List AggregatorCall) :
    flushes (returned aggregatorStep a calls) = [] →
      (runAll aggregatorStep a calls).metrics.batches = 0 ∧ (runAll aggregatorStep a calls).metrics.groups = 0 ∧
        (runAll aggregatorStep a calls).metrics.timeouts = 0 := by
  refine runAll_returned (H := fun log b => flushes log = [] →
    b.metrics.batches = 0 ∧ b.metrics.groups = 0 ∧ b.metrics.timeouts = 0) ?_ ?_
    (along_true aggregatorStep a calls)
  · rw [(new_ok hnew).2]
    exact fun _ => ⟨rfl, rfl, rfl⟩
  · intro log b call result c h _ hrun hnone
    rw [flushes_snoc] at hnone
    obtain ⟨hbefore, hlast⟩ := List.append_eq_nil_iff.1 hnone
    obtain ⟨_, _, _, _, rfl, rfl, rfl⟩ | ⟨_, _, rfl, rfl, -⟩ | ⟨_, rfl, -, -, hmetrics⟩ := aggregatorStep_ok hrun
    · exact h hbefore
    · cases hlast
    · rw [hmetrics]
      exact h hbefore

/-- After any calls a flush of pending requests succeeds exactly if the sum for every target fits and
its counters have room, which they have before the first flush; a batch with a sum that does not fit
stays as it is. -/
theorem flush_empties_iff (hnew : new windowLedgers maxSize = .ok a) (calls : List AggregatorCall) :
    Empties (runAll aggregatorStep a calls) ∧
      (flushes (returned aggregatorStep a calls) = [] → ∀ now, CountersFit (runAll aggregatorStep a calls) now) := by
  refine ⟨Aggregator.empties _, fun hnone now => ?_⟩
  obtain ⟨hbatches, hgroups, htimeouts⟩ := counters_run hnew calls hnone
  have hfew : (groupsOf (runAll aggregatorStep a calls).pending).length ≤ maxBatch := by
    rw [groupsOf, List.length_map]
    refine (length_keysOf_le _ _).trans ?_
    rw [Aggregator.length_pending]
    exact (Aggregator.len_le _).trans (Aggregator.maxSize_le _)
  refine ⟨?_, ?_, fun _ => ?_⟩
  · rw [hbatches]
    decide
  · rw [hgroups, Nat.zero_add]
    exact hfew.trans (by decide)
  · rw [htimeouts]
    decide

theorem flush_empties_sample :
    Empties (runAll aggregatorStep sampleAggregator (aggregatorCalls.take 3)) ∧
      ∀ now, CountersFit (runAll aggregatorStep sampleAggregator (aggregatorCalls.take 3)) now := by
  have h := flush_empties_iff (show new 5 8 = .ok sampleAggregator from rfl) (aggregatorCalls.take 3)
  exact ⟨h.1, h.2 (by decide +kernel)⟩

/-- Two accepted requests for one target that come to one more than the largest word. -/
def tooMuch : List AggregatorCall := [.add ⟨1, 1, i128Max⟩ 0, .add ⟨2, 1, 1⟩ 0]

/-- They can never be flushed. -/
theorem flush_stuck :
    (returned aggregatorStep sampleAggregator tooMuch).map Prod.snd = [.ok (.queued 1), .ok (.queued 2)] ∧
      ∀ now, ¬∃ f b, flush now (runAll aggregatorStep sampleAggregator tooMuch) = .ok (.ok f, b) := by
  refine ⟨by decide +kernel, fun now => ?_⟩
  have hpending : (runAll aggregatorStep sampleAggregator tooMuch).pending = [⟨1, 1, i128Max⟩, ⟨2, 1, 1⟩] := by
    decide +kernel
  rintro ⟨f, b, hrun⟩
  have hstuck : flush now (runAll aggregatorStep sampleAggregator tooMuch) =
      .ok (.error .overflow, runAll aggregatorStep sampleAggregator tooMuch) := by
    apply flush_overflow
    · rw [hpending]
      exact List.cons_ne_nil _ _
    · intro hfits
      rw [hpending] at hfits
      exact absurd (hfits 1) (by decide +kernel)
  cases hstuck.symm.trans hrun

end StellarSplit.Split.Aggregation
