import StellarSplit.Split.Records
import StellarSplit.Split.Shards

/-!
# Compressed payments

The payments of a payer become one entry in the payer's shard, with the sums of the
amounts and of the tips. The entry is never one that is donated on failure, so what a
payer had meant for the creator goes back to the payer when the invoice fails.
-/

namespace StellarSplit.Split.Compression

open Exec Function

variable {env : Env} {s t : Store} {v : Unit} {id : ℕ} {payments : List Payment} {p : Address}

/-! ## Payments spread over the shards -/

def spread (payments : List Payment) : List Payment :=
  (List.range shardCount).flatMap fun shard => payments.filter fun q => computeShardId q.payer = shard

theorem ofPayer_inShard (payments : List Payment) (p : Address) (shard : ℕ) :
    (payments.filter fun q => computeShardId q.payer = shard).filter (fun q => q.payer = p) =
      if computeShardId p = shard then payments.filter fun q => q.payer = p else [] := by
  rw [List.filter_filter]
  split_ifs with hshard
  · apply List.filter_congr
    intro q _
    by_cases hq : q.payer = p
    · simp [hq, hshard]
    · simp [hq]
  · rw [List.filter_eq_nil_iff]
    intro q _ hq
    obtain ⟨rfl, hin⟩ : q.payer = p ∧ computeShardId q.payer = shard := by simpa using hq
    exact hshard hin

/-- The payments of a payer are found again, in their order. -/
theorem ofPayer_spread (payments : List Payment) (p : Address) :
    (spread payments).filter (fun q => q.payer = p) = payments.filter fun q => q.payer = p := by
  have hupto : ∀ n, ((List.range n).flatMap fun shard => payments.filter fun q =>
      computeShardId q.payer = shard).filter (fun q => q.payer = p) =
        if computeShardId p < n then payments.filter fun q => q.payer = p else [] := by
    intro n
    induction n with
    | zero => rfl
    | succ n ih =>
        rw [List.range_succ, List.flatMap_append, List.filter_append, ih, List.flatMap_singleton,
          ofPayer_inShard]
        rcases lt_trichotomy (computeShardId p) n with hlt | heq | hgt
        · simp [hlt, hlt.ne, Nat.lt_succ_of_lt hlt]
        · simp [heq]
        · simp [not_lt.2 hgt.le, hgt.ne', not_lt.2 (Nat.succ_le_of_lt hgt)]
  rw [spread, hupto, if_pos (computeShardId_lt p)]

/-! ## One entry for each payer -/

def entryOf (payments : List Payment) (p : Address) : Payment :=
  { payer := p, amount := paidBy payments p, tip := tipsBy payments p }

theorem mem_payersOf_iff : p ∈ payersOf payments ↔ ∃ q ∈ payments, q.payer = p := by
  rw [payersOf, List.mem_insertionSort, List.mem_dedup, List.mem_map]

theorem ofPayer_compressed (payments : List Payment) (p : Address) :
    (compressedPayments payments).filter (fun q => q.payer = p) =
      if p ∈ payersOf payments then [entryOf payments p] else [] := by
  have hpayers : (payersOf payments).filter (fun a => a = p) = if p ∈ payersOf payments then [p] else [] := by
    rw [List.filter_eq]
    split_ifs with hp
    · rw [List.count_eq_one_of_mem (payersOf_nodup payments) hp, List.replicate_one]
    · rw [List.count_eq_zero_of_not_mem hp, List.replicate_zero]
  have hmap : (compressedPayments payments).filter (fun q => q.payer = p) =
      ((payersOf payments).filter fun a => a = p).map (entryOf payments) := List.filter_map
  rw [hmap, hpayers]
  split_ifs <;> rfl

theorem compressed_kept : ∀ q ∈ compressedPayments payments, q.donateOnFailure = false := by
  intro q hq
  obtain ⟨p, -, rfl⟩ := List.mem_map.1 hq
  rfl

theorem paidBy_compressed (payments : List Payment) (p : Address) :
    paidBy (spread (compressedPayments payments)) p = paidBy payments p := by
  rw [paidBy, ofPayer_spread, ofPayer_compressed]
  split_ifs with hp
  · simp [entryOf]
  · simp [paidBy_of_not_mem hp]

theorem tipsBy_compressed (payments : List Payment) (p : Address) :
    tipsBy (spread (compressedPayments payments)) p = tipsBy payments p := by
  rw [tipsBy, ofPayer_spread, ofPayer_compressed]
  split_ifs with hp
  · simp [entryOf]
  · have hnone : payments.filter (fun q => q.payer = p) = [] := by
      rw [List.filter_eq_nil_iff]
      intro q hq hpayer
      exact hp (mem_payersOf_iff.2 ⟨q, hq, by simpa using hpayer⟩)
    simp [tipsBy, hnone]

theorem mem_spread {q : Payment} (hq : q ∈ spread payments) : q ∈ payments := by
  obtain ⟨shard, -, hq⟩ := List.mem_flatMap.1 hq
  exact List.mem_of_mem_filter hq

theorem kept_compressed (payments : List Payment) :
    keptPayments (spread (compressedPayments payments)) = spread (compressedPayments payments) := by
  apply List.filter_eq_self.2
  intro q hq
  rw [compressed_kept q (mem_spread hq)]
  rfl

theorem donated_compressed (payments : List Payment) :
    donatedPayments (spread (compressedPayments payments)) = [] := by
  apply List.filter_eq_nil_iff.2
  intro q hq
  rw [compressed_kept q (mem_spread hq)]
  exact Bool.false_ne_true

theorem paidBy_kept_donated (payments : List Payment) (p : Address) :
    paidBy (keptPayments payments) p + paidBy (donatedPayments payments) p = paidBy payments p := by
  have hsplit := sum_kept_donated (payments.filter fun q => q.payer = p)
  have hkept : keptPayments (payments.filter fun q => q.payer = p) =
      (keptPayments payments).filter fun q => q.payer = p := List.filter_comm _ _ _
  have hdonated : donatedPayments (payments.filter fun q => q.payer = p) =
      (donatedPayments payments).filter fun q => q.payer = p := List.filter_comm _ _ _
  rwa [hkept, hdonated] at hsplit

/-! ## The call -/

theorem compressPayments_ok (hrun : compressPayments env id s = .ok (v, t)) :
    (t.entries id).invoice = (s.entries id).invoice ∧
      (∀ shard, (t.entries id).shards shard = (compressedPayments (s.entries id).payments).filter
        fun q => computeShardId q.payer = shard) ∧
      ∃ inv, (s.entries id).invoice = some inv ∧
        ((compressedPayments (s.entries id).payments).map Payment.amount).sum = inv.funded := by
  simp only [compressPayments, requireNotPaused_bind, loadInvoice_bind, require_bind] at hrun
  obtain ⟨-, inv, hload, hsum, hwrite⟩ := hrun
  obtain rfl := modifyEntry_ok.1 hwrite
  obtain ⟨stored, hstored, rfl⟩ := Option.map_eq_some_iff.1 hload
  rw [Store.setEntry_self]
  exact ⟨rfl, fun _ => rfl, stored, hstored, hsum⟩

theorem payments_compressed (hrun : compressPayments env id s = .ok (v, t)) :
    (t.entries id).payments = spread (compressedPayments (s.entries id).payments) := by
  obtain ⟨-, hshards, -⟩ := compressPayments_ok hrun
  rw [Entry.payments, spread]
  congr 1
  funext shard
  exact hshards shard

theorem sum_compressed (payments : List Payment) :
    ((compressedPayments payments).map Payment.amount).sum = (payments.map Payment.amount).sum := by
  rw [← sumOf_totalsOf payments, sumOf, totalsOf, compressedPayments, List.map_map, List.map_map]
  rfl

theorem sum_spread (payments : List Payment) :
    ((spread payments).map Payment.amount).sum = (payments.map Payment.amount).sum := by
  have hall : payments.filter (fun q => computeShardId q.payer < shardCount) = payments := by
    rw [List.filter_eq_self]
    exact fun q _ => decide_eq_true (computeShardId_lt q.payer)
  have hbanked := banked_shards payments shardCount
  rwa [hall] at hbanked

/-- What a payer sees of the payments stays: the totals, the part that a refund returns and the part
it donates; each payer has one entry, in its shard; and compressing again changes no total. -/
structure Unobserved (id : ℕ) (s t : Store) : Prop where
  invoice : (t.entries id).invoice = (s.entries id).invoice
  paid : ∀ p, paidBy (t.entries id).payments p = paidBy (s.entries id).payments p
  tips : ∀ p, tipsBy (t.entries id).payments p = tipsBy (s.entries id).payments p
  total : ((t.entries id).payments.map Payment.amount).sum = ((s.entries id).payments.map Payment.amount).sum
  funded : ∀ inv ∈ (t.entries id).invoice, ((t.entries id).payments.map Payment.amount).sum = inv.funded
  returned : ∀ p, paidBy (keptPayments (t.entries id).payments) p =
    paidBy (keptPayments (s.entries id).payments) p
  donated : ∀ p, paidBy (donatedPayments (t.entries id).payments) p =
    paidBy (donatedPayments (s.entries id).payments) p
  single : ∀ p, ((t.entries id).payments.filter fun q => q.payer = p).length =
    if p ∈ payersOf (s.entries id).payments then 1 else 0
  shards : ∀ shard, ∀ q ∈ (t.entries id).shards shard, computeShardId q.payer = shard
  again : ∀ env v u, compressPayments env id t = .ok (v, u) → ∀ p,
    paidBy (u.entries id).payments p = paidBy (t.entries id).payments p ∧
      tipsBy (u.entries id).payments p = tipsBy (t.entries id).payments p

/-- A compression goes unobserved exactly when no payer had meant a payment for the creator. -/
theorem compression_unobserved_iff (hrun : compressPayments env id s = .ok (v, t)) :
    Unobserved id s t ↔ ∀ p, paidBy (donatedPayments (s.entries id).payments) p = 0 := by
  have hpayments := payments_compressed hrun
  have hnone : ∀ p, paidBy (donatedPayments (t.entries id).payments) p = 0 := by
    intro p
    rw [hpayments, donated_compressed]
    rfl
  refine ⟨fun h p => (h.donated p).symm.trans (hnone p), fun hzero => ?_⟩
  obtain ⟨hinvoice, hshards, inv, hinv, hfunded⟩ := compressPayments_ok hrun
  have hpaid : ∀ p, paidBy (t.entries id).payments p = paidBy (s.entries id).payments p := by
    intro p
    rw [hpayments, paidBy_compressed]
  have htotal : ((t.entries id).payments.map Payment.amount).sum =
      ((s.entries id).payments.map Payment.amount).sum := by
    rw [hpayments, sum_spread, sum_compressed]
  refine ⟨hinvoice, hpaid, ?_, htotal, ?_, ?_, fun p => (hnone p).trans (hzero p).symm, ?_, ?_, ?_⟩
  · intro p
    rw [hpayments, tipsBy_compressed]
  · intro stored hstored
    obtain rfl := Option.some.inj (hinv.symm.trans (hinvoice.symm.trans hstored))
    rw [htotal, ← sum_compressed, hfunded]
  · intro p
    have hbefore := paidBy_kept_donated (s.entries id).payments p
    rw [hzero p, add_zero] at hbefore
    rw [hbefore, ← hpaid p, hpayments, kept_compressed]
  · intro p
    rw [hpayments, ofPayer_spread, ofPayer_compressed]
    split_ifs <;> rfl
  · intro shard q hq
    rw [hshards] at hq
    simpa using List.of_mem_filter hq
  · intro env' v' u hagain p
    rw [payments_compressed hagain, paidBy_compressed, tipsBy_compressed]
    exact ⟨rfl, rfl⟩

/-- Payer 20 has paid twice and payer 21 once. -/
def threePayments (donated : Bool) : List Payment :=
  [⟨20, 30, 1, donated⟩, ⟨21, 20, 0, false⟩, ⟨20, 10, 0, false⟩]

def partlyFunded : Invoice := { sampleInvoice with funded := 60 }

theorem compression_unobserved_sample :
    Unobserved 1 (sampleStore partlyFunded (threePayments false))
        (commit (compressPayments (sampleEnv 5 60) 1) (sampleStore partlyFunded (threePayments false))) ↔
      ∀ p, paidBy (donatedPayments
        ((sampleStore partlyFunded (threePayments false)).entries 1).payments) p = 0 :=
  have hrun : compressPayments (sampleEnv 5 60) 1 (sampleStore partlyFunded (threePayments false)) = .ok ((), _) :=
    ok_commit (s := sampleStore partlyFunded (threePayments false)) (a := ()) (by decide +kernel)
  compression_unobserved_iff hrun

/-- What a refund after the deadline sends to whom, without and with a compression before it. -/
theorem compression_observed :
    ((refund (sampleEnv 2000 60) 1 (sampleStore partlyFunded (threePayments true))).toOption.map
        fun r => r.2.log.map fun m => (m.dst, m.amount)) = some [(2, 30), (21, 20), (20, 10)] ∧
      (((compressPayments (sampleEnv 5 60) 1 >>= fun _ => refund (sampleEnv 2000 60) 1)
          (sampleStore partlyFunded (threePayments true))).toOption.map
        fun r => r.2.log.map fun m => (m.dst, m.amount)) = some [(21, 20), (20, 40)] := by
  decide +kernel

end StellarSplit.Split.Compression
