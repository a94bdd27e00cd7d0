import StellarSplit.Split.Passes

/-!
# What a call leaves alone

A call on one invoice writes the entries of a few invoices and logs movements
for them. `Frame V W M` says that a call wrote the entries of the invoices in
`W` only and logged movements with a memo in `M` only. A release may go on to
the invoices its forwarding pointers name, so the frame assumes and keeps that
`W` is closed under these pointers.
-/

namespace StellarSplit.Split

open Exec Function

variable {V W : Set ℕ} {M : Memo → Prop} {s t u : Store} {env : Env} {α : Type}

/-! ## The relation -/

/-- The invoice forwards its remainder to an invoice in `V`, if to any. -/
def ForwardsInto (V : Set ℕ) (inv : Invoice) : Prop := ∀ m ∈ inv.forwardInvoiceId, m ∈ V

/-- The invoices that forward into `V`. -/
abbrev Inside (V : Set ℕ) : Type := { inv : Invoice // ForwardsInto V inv }

instance inside_into {inv : Inside V} : Fact (ForwardsInto V inv.1) := ⟨inv.2⟩

/-- The stored invoices of `W` forward into `V`. -/
def Closed (V W : Set ℕ) (s : Store) : Prop :=
  ∀ k ∈ W, ∀ inv ∈ (s.entries k).invoice, ForwardsInto V inv

/-- Only invoices in `W` were written and only movements with memos in `M` logged. -/
structure Change (W : Set ℕ) (M : Memo → Prop) (s t : Store) : Prop where
  entries : ∀ k, k ∉ W → t.entries k = s.entries k
  group : ∀ k, (t.entries k).group = (s.entries k).group
  groups : t.groups = s.groups
  counter : s.counter ≤ t.counter
  log : ∃ new, t.log = new ++ s.log ∧ ∀ m ∈ new, M m.memo

theorem Change.refl (W : Set ℕ) (M : Memo → Prop) (s : Store) : Change W M s s :=
  ⟨fun _ _ => rfl, fun _ => rfl, rfl, le_rfl, [], by simp⟩

theorem Change.trans (h₁ : Change W M s t) (h₂ : Change W M t u) : Change W M s u := by
  refine ⟨fun k hk => (h₂.entries k hk).trans (h₁.entries k hk), ?_, h₂.groups.trans h₁.groups,
    h₁.counter.trans h₂.counter, grown_trans h₁.log h₂.log⟩
  intro k
  exact (h₂.group k).trans (h₁.group k)

instance change_refl : Std.Refl (Change W M) := ⟨.refl W M⟩

instance change_trans : IsTrans Store (Change W M) := ⟨fun _ _ _ => .trans⟩

/-- A call that starts with the invoices of `W` forwarding into `V` keeps that and stays
within `W` and `M`. A release needs `V = W`; without one `V` may be everything. -/
abbrev Frame (V W : Set ℕ) (M : Memo → Prop) : Store → Store → Prop :=
  Under (Closed V W) (Change W M)

/-- The memos of all invoices in `W` are allowed. -/
class Covers (W : Set ℕ) (M : Memo → Prop) : Prop where
  memo : ∀ m ∈ W, ∀ p, M ⟨m, p⟩

/-- A memo is allowed; `W` only guides the instance search. -/
class Logs (_ : Set ℕ) (M : Memo → Prop) (memo : Memo) : Prop where
  memo : M memo

instance covers_logs [hWM : Covers W M] {id : ℕ} [hid : Fact (id ∈ W)] {p : Purpose} :
    Logs W M ⟨id, p⟩ :=
  ⟨hWM.memo id hid.out p⟩

/-! ## What the frame allows -/

instance moves_frame {memo : Memo} [h : Logs W M memo] : Moves (Frame V W M) memo := by
  refine ⟨fun s m hm hs => ⟨hs, fun _ _ => rfl, fun _ => rfl, rfl, le_rfl, [m], rfl, ?_⟩⟩
  simpa [hm] using h.memo

instance counts_frame : Counts (Frame V W M) :=
  ⟨fun _ _ _ hs => ⟨hs, fun _ _ => rfl, fun _ => rfl, rfl, le_rfl, [], by simp⟩⟩

instance countsVolume_frame : CountsVolume (Frame V W M) :=
  ⟨fun _ _ hs => ⟨hs, fun _ _ => rfl, fun _ => rfl, rfl, le_rfl, [], by simp⟩⟩

instance locks_frame : Locks (Frame V W M) :=
  ⟨fun _ _ hs => ⟨hs, fun _ _ => rfl, fun _ => rfl, rfl, le_rfl, [], by simp⟩⟩

/-- A write to the entries of an invoice in `W` that keeps its group and, for an invoice
it stores, stays inside `W`. -/
theorem frame_setEntry {id : ℕ} (hid : id ∈ W) {e : Entry} (hgroup : e.group = (s.entries id).group)
    (hinv : ∀ inv ∈ e.invoice, inv ∈ (s.entries id).invoice ∨ ForwardsInto V inv) :
    Frame V W M s (s.setEntry id e) := by
  refine fun hs => ⟨?_, ?_, ?_, rfl, le_rfl, [], by simp⟩
  · intro k hk inv hstored
    by_cases hkid : k = id
    · subst hkid
      rw [Store.setEntry_self] at hstored
      rcases hinv inv hstored with hold | hinto
      · exact hs k hk inv hold
      · exact hinto
    · rw [Store.setEntry_ne s hkid] at hstored
      exact hs k hk inv hstored
  · intro k hk
    have hkid : k ≠ id := by
      rintro rfl
      exact hk hid
    exact Store.setEntry_ne s hkid _
  · intro k
    by_cases hkid : k = id
    · subst hkid
      rw [Store.setEntry_self, hgroup]
    · rw [Store.setEntry_ne s hkid]

instance notes_frame {id : ℕ} [hid : Fact (id ∈ W)] : Notes (Frame V W M) id := by
  refine ⟨fun s e hcore => ?_⟩
  have hgroup : e.core.group = (s.entries id).core.group := by rw [hcore]
  have hinvoice : e.core.invoice = (s.entries id).core.invoice := by rw [hcore]
  exact frame_setEntry hid.out hgroup fun inv hinv => .inl (hinvoice ▸ hinv)

instance credits_frame {id : ℕ} [hid : Fact (id ∈ W)] : Credits (Frame V W M) id :=
  ⟨fun _ _ => frame_setEntry hid.out rfl fun _ => .inl⟩

instance saves_frame {id : ℕ} {inv : Invoice} [hid : Fact (id ∈ W)]
    [hinv : Fact (ForwardsInto V inv)] : Saves (Frame V W M) id inv := by
  refine ⟨fun inv' hterms s => frame_setEntry hid.out rfl fun stored hstored => .inr ?_⟩
  obtain rfl : inv'.withPayments [] = stored := by simpa using hstored
  have hsame : inv'.terms.forwardInvoiceId = inv.terms.forwardInvoiceId := by rw [hterms]
  have hinto : ForwardsInto V inv' := by
    intro m hm
    exact hinv.out m (hsame ▸ hm)
  exact hinto

/-! ## Loaded invoices -/

section Updates

variable {inv : Invoice} [h : Fact (ForwardsInto V inv)]

instance into_withStatus {status : InvoiceStatus} : Fact (ForwardsInto V (inv.withStatus status)) :=
  ⟨h.out⟩

instance into_completed {status : InvoiceStatus} {now : ℕ} :
    Fact (ForwardsInto V (inv.completed status now)) := ⟨h.out⟩

instance into_withFunded {x : ℤ} : Fact (ForwardsInto V (inv.withFunded x)) := ⟨h.out⟩

instance into_withMilestones {n : ℕ} : Fact (ForwardsInto V (inv.withMilestones n)) := ⟨h.out⟩

instance into_withAuctionEnd {n : ℕ} : Fact (ForwardsInto V (inv.withAuctionEnd n)) := ⟨h.out⟩

instance into_withBid {b : Bid} : Fact (ForwardsInto V (inv.withBid b)) := ⟨h.out⟩

instance into_withDisputed {b : Bool} : Fact (ForwardsInto V (inv.withDisputed b)) := ⟨h.out⟩

instance into_insurancePaid : Fact (ForwardsInto V inv.insurancePaid) := ⟨h.out⟩

instance into_markRefunded {a : Address} : Fact (ForwardsInto V (inv.markRefunded a)) := ⟨h.out⟩

instance into_resumed : Fact (ForwardsInto V inv.resumed) := ⟨h.out⟩

instance into_credited {x y z : ℤ} : Fact (ForwardsInto V (inv.credited x y z)) := ⟨h.out⟩

instance into_contributed {x : ℤ} : Fact (ForwardsInto V (inv.contributed x)) := ⟨h.out⟩

instance into_ite {c : Prop} [Decidable c] {inv' : Invoice} [h' : Fact (ForwardsInto V inv')] :
    Fact (ForwardsInto V (if c then inv else inv')) := by
  split
  · exact h
  · exact h'

end Updates

/-! ## Groups -/

section Groups

variable {id : ℕ}

/-- An invoice of `W` that is loaded from storage forwards into `W`. -/
theorem Closed.load {id : ℕ} {inv : Invoice} (hs : Closed V W s) (hid : id ∈ W)
    (hload : (s.entries id).load = some inv) : ForwardsInto V inv := by
  obtain ⟨stored, hstored, rfl⟩ := Option.map_eq_some_iff.1 hload
  exact hs id hid stored hstored

/-- A call of the frame that returns an invoice which forwards into `W`. -/
class Loads (V W : Set ℕ) (M : Memo → Prop) (x : SplitM Invoice) : Prop where
  framed : Framed (Frame V W M) x
  into : ∀ s inv t, Closed V W s → x s = .ok (inv, t) → ForwardsInto V inv

instance framed_loads {x : SplitM Invoice} [hx : Loads V W M x] {f : Invoice → SplitM α}
    [hf : ∀ inv : Inside V, Framed (Frame V W M) (f inv)] : Framed (Frame V W M) (x >>= f) := by
  refine .of fun s a t hrun hs => ?_
  obtain ⟨inv, u, hread, hrest⟩ := bind_ok.1 hrun
  obtain ⟨hu, hsu⟩ := hx.framed.respects s inv u hread hs
  obtain ⟨ht, hut⟩ := (hf ⟨inv, hx.into s inv u hs hread⟩).respects u a t hrest hu
  exact ⟨ht, hsu.trans hut⟩

instance loads_loadInvoice [hid : Fact (id ∈ W)] : Loads V W M (loadInvoice id) := by
  refine ⟨inferInstance, fun s inv t hs hread => ?_⟩
  exact hs.load hid.out (loadInvoice_ok.1 hread).1

instance loads_pure {inv : Invoice} [hinv : Fact (ForwardsInto V inv)] : Loads V W M (pure inv) := by
  refine ⟨inferInstance, fun s inv' t _ hread => ?_⟩
  obtain ⟨rfl, -⟩ := pure_ok.1 hread
  exact hinv.out

instance loads_bind {x : SplitM α} [hx : Framed (Frame V W M) x] {f : α → SplitM Invoice}
    [hf : ∀ a, Loads V W M (f a)] : Loads V W M (x >>= f) := by
  have hframed : ∀ a, Framed (Frame V W M) (f a) := fun a => (hf a).framed
  refine ⟨inferInstance, fun s inv t hs hrun => ?_⟩
  obtain ⟨a, u, hread, hrest⟩ := bind_ok.1 hrun
  exact (hf a).into u inv t (hx.respects s a u hread hs).1 hrest

instance (priority := 1100) loads_andThen {x : SplitM α} [Framed (Frame V W M) x] {y : SplitM Invoice}
    [Loads V W M y] : Loads V W M (x >>= fun _ => y) :=
  loads_bind

instance loads_loads {x : SplitM Invoice} [hx : Loads V W M x] {f : Invoice → SplitM Invoice}
    [hf : ∀ inv : Inside V, Loads V W M (f inv)] : Loads V W M (x >>= f) := by
  have hframed : ∀ inv : Inside V, Framed (Frame V W M) (f inv) := fun inv => (hf inv).framed
  refine ⟨inferInstance, fun s inv t hs hrun => ?_⟩
  obtain ⟨a, u, hread, hrest⟩ := bind_ok.1 hrun
  exact (hf ⟨a, hx.into s a u hs hread⟩).into u inv t (hx.framed.respects s a u hread hs).1 hrest

instance loads_ite {c : Prop} [Decidable c] {x y : SplitM Invoice} [Loads V W M x] [Loads V W M y] :
    Loads V W M (if c then x else y) := by
  split <;> infer_instance

instance framed_releaseMember [Fact (id ∈ W)] [∀ p, Logs W M ⟨id, p⟩] :
    Framed (Frame V W M) (releaseMember env id) := by
  unfold releaseMember
  infer_instance

/-- A member that is not pending is passed over. -/
theorem releaseMember_idle {m : ℕ} {v : Unit}
    (hidle : ∀ inv ∈ (s.entries m).invoice, inv.status ≠ .pending)
    (hrun : releaseMember env m s = .ok (v, t)) : t = s := by
  obtain ⟨inv, _, hread, hrun⟩ := bind_ok.1 hrun
  obtain ⟨hload, rfl⟩ := loadInvoice_ok.1 hread
  obtain ⟨stored, hstored, rfl⟩ := Option.map_eq_some_iff.1 hload
  have hstatus : (stored.withPayments (s.entries m).payments).status ≠ .pending :=
    hidle stored hstored
  rcases onlyIf_ok.1 hrun with ⟨hpending, -⟩ | ⟨-, rfl⟩
  · exact absurd hpending hstatus
  · rfl

/-- The members are in `W` or not pending. -/
def MembersInside (W : Set ℕ) (ms : List ℕ) (s : Store) : Prop :=
  ∀ m ∈ ms, m ∈ W ∨ ∀ inv ∈ (s.entries m).invoice, inv.status ≠ .pending

theorem MembersInside.change {ms : List ℕ} (h : MembersInside W ms s) (hst : Change W M s t) :
    MembersInside W ms t := by
  intro m hm
  by_cases hmW : m ∈ W
  · exact .inl hmW
  · rw [hst.entries m hmW]
    exact h m hm

theorem respects_releaseMembers [Covers W M] (ms : List ℕ) :
    Respects (Under (fun s => Closed W W s ∧ MembersInside W ms s) (Change W M))
      (forM ms (releaseMember env)) := by
  refine .forM fun m hm s v t hrun ⟨hclosed, hms⟩ => ?_
  by_cases hmW : m ∈ W
  · have hmem : Fact (m ∈ W) := ⟨hmW⟩
    have hmember : Framed (Frame W W M) (releaseMember env m) := inferInstance
    obtain ⟨hclosed', hst⟩ := hmember.respects s v t hrun hclosed
    exact ⟨⟨hclosed', hms.change hst⟩, hst⟩
  · obtain rfl := releaseMember_idle ((hms m hm).resolve_left hmW) hrun
    exact ⟨⟨hclosed, hms⟩, .refl W M t⟩

/-- The other members of the invoice's group are in `W` or not pending. -/
def GroupInside (W : Set ℕ) (id : ℕ) (s : Store) : Prop :=
  ∀ g ∈ (s.entries id).group, ∀ G ∈ s.groups g, MembersInside W (G.invoiceIds.filter (· ≠ id)) s

theorem GroupInside.members (h : GroupInside W id s) :
    MembersInside W ((groupMembers s id).filter (· ≠ id)) s := by
  unfold groupMembers
  cases hg : (s.entries id).group with
  | none => exact fun m hm => by cases hm
  | some g =>
      rw [Option.bind_some]
      cases hG : s.groups g with
      | none => exact fun m hm => by cases hm
      | some G => exact h g hg G hG

theorem GroupInside.change (h : GroupInside W id s) (hst : Change W M s t) : GroupInside W id t := by
  intro g hg G hG
  rw [hst.group] at hg
  rw [hst.groups] at hG
  exact (h g hg G hG).change hst

/-- The frame of a call that may release the group of invoice `id`. -/
abbrev GroupFrame (W : Set ℕ) (M : Memo → Prop) (id : ℕ) : Store → Store → Prop :=
  Under (fun s => Closed W W s ∧ GroupInside W id s) (Change W M)

instance (priority := low) framed_group {x : SplitM α} [hx : Framed (Frame W W M) x] :
    Framed (GroupFrame W M id) x :=
  .of fun s a t hrun ⟨hclosed, hgroup⟩ => by
    obtain ⟨hclosed', hst⟩ := hx.respects s a t hrun hclosed
    exact ⟨⟨hclosed', hgroup.change hst⟩, hst⟩

instance framed_loads_group {x : SplitM Invoice} [hx : Loads W W M x] {f : Invoice → SplitM α}
    [hf : ∀ inv : Inside W, Framed (GroupFrame W M id) (f inv)] :
    Framed (GroupFrame W M id) (x >>= f) := by
  refine .of fun s a t hrun ⟨hclosed, hgroup⟩ => ?_
  obtain ⟨inv, u, hread, hrest⟩ := bind_ok.1 hrun
  obtain ⟨hu, hsu⟩ := hx.framed.respects s inv u hread hclosed
  obtain ⟨ht, hut⟩ :=
    (hf ⟨inv, hx.into s inv u hclosed hread⟩).respects u a t hrest ⟨hu, hgroup.change hsu⟩
  exact ⟨ht, hsu.trans hut⟩

instance framed_releaseGroup [Covers W M] : Framed (GroupFrame W M id) (releaseGroup env id) := by
  refine .of fun s v t hrun ⟨hclosed, hgroup⟩ => ?_
  have hmembers : Respects
      (Under (fun u => Closed W W u ∧ MembersInside W ((groupMembers s id).filter (· ≠ id)) u) (Change W M))
      (forM ((groupMembers s id).filter (· ≠ id)) (releaseMember env)) := respects_releaseMembers _
  obtain ⟨⟨hclosed', -⟩, hst⟩ := hmembers s v t (releaseGroup_ok hrun) ⟨hclosed, hgroup.members⟩
  exact ⟨⟨hclosed', hgroup.change hst⟩, hst⟩

end Groups

/-! ## Forwarding and release -/

section Release

variable {id : ℕ} {inv : Invoice}

/-- The invoices a nested release may reach stay inside `W`. -/
def NextInside (W : Set ℕ) (M : Memo → Prop) (next : ℕ → Invoice → Address → SplitM Unit) : Prop :=
  ∀ id inv actor, id ∈ W → ForwardsInto W inv → Respects (GroupFrame W M id) (next id inv actor)

theorem framed_forwardToInvoice {next : ℕ → Invoice → Address → SplitM Unit}
    (hnext : NextInside W M next) {leftover : ℤ} [hid : Fact (id ∈ W)] :
    Framed (Frame W W M) (forwardToInvoice env next id leftover) := by
  have hbranch : ∀ target : Inside W, Framed (Frame W W M) (do
      let e ← getEntry id
      if target.1.total ≤ target.1.funded + leftover ∧ isGuarded e target = false then
        next id (target.1.withFunded (target.1.funded + leftover)) currentContract
      else saveInvoice env id (target.1.withFunded (target.1.funded + leftover))) := by
    intro target
    refine .of fun s v t hrun hclosed => ?_
    simp only [getEntry, bind_ok, get_ok, pure_ok] at hrun
    obtain ⟨e, _, ⟨_, _, ⟨rfl, rfl⟩, rfl, rfl⟩, hrun⟩ := hrun
    split at hrun
    · -- an unguarded target is in no group
      rename_i hguard
      have hgroup : (s.entries id).group = none := by
        have hfree := hguard.2
        simp only [isGuarded, Bool.or_eq_false_iff] at hfree
        simpa using hfree.1.1.2
      have hinside : GroupInside W id s := by
        intro g hg
        simp [hgroup] at hg
      obtain ⟨⟨hclosed', -⟩, hst⟩ :=
        hnext id _ _ hid.out into_withFunded.out s v t hrun ⟨hclosed, hinside⟩
      exact ⟨hclosed', hst⟩
    · have hsave : Framed (Frame W W M)
          (saveInvoice env id (target.1.withFunded (target.1.funded + leftover))) := inferInstance
      exact hsave.respects s v t hrun hclosed
  unfold forwardToInvoice
  infer_instance

theorem framed_forwardLeftover {next : ℕ → Invoice → Address → SplitM Unit}
    (hnext : NextInside W M next) {leftover : ℤ} [Logs W M ⟨id, .forward⟩]
    [hinv : Fact (ForwardsInto W inv)] :
    Framed (Frame W W M) (forwardLeftover env next id inv leftover) := by
  unfold forwardLeftover
  split
  · split
    · infer_instance
    · split
      · rename_i target htarget
        have hmem : Fact (target ∈ W) := ⟨hinv.out target htarget⟩
        exact framed_forwardToInvoice hnext
      · infer_instance
  · infer_instance

variable [Covers W M]

theorem framed_releaseFull {next : ℕ → Invoice → Address → SplitM Unit}
    (hnext : NextInside W M next) {actor : Address} [Fact (id ∈ W)]
    [Fact (ForwardsInto W inv)] :
    Framed (GroupFrame W M id) (releaseFull env next id inv actor) := by
  have hforward : ∀ leftover, Framed (Frame W W M) (forwardLeftover env next id inv leftover) :=
    fun _ => framed_forwardLeftover hnext
  unfold releaseFull
  refine .next fun e => .next fun platformFee => .next fun plan => ?_
  infer_instance

theorem nextInside_releaseWithin (depth : ℕ) : NextInside W M (releaseWithin env depth) := by
  induction depth with
  | zero => exact fun _ _ _ _ _ => .throw _
  | succ depth ih =>
      intro id inv actor hid hinv
      have hmem : Fact (id ∈ W) := ⟨hid⟩
      have hinto : Fact (ForwardsInto W inv) := ⟨hinv⟩
      have hfull : Framed (GroupFrame W M id) (releaseFull env (releaseWithin env depth) id inv actor) :=
        framed_releaseFull ih
      unfold releaseWithin
      exact Framed.holds

instance framed_releaseAs {actor : Address} [hid : Fact (id ∈ W)]
    [hinv : Fact (ForwardsInto W inv)] :
    Framed (GroupFrame W M id) (releaseAs env id inv actor) :=
  .of (nextInside_releaseWithin env.depth id inv actor hid.out hinv.out)

end Release

/-! ## Entry points -/

section Calls

variable {id : ℕ} {inv : Invoice} [Covers W M] [hid : Fact (id ∈ W)]

instance framed_releaseInvoiceInner {p : Option (List ℕ)} :
    Framed (GroupFrame W M id) (releaseInvoiceInner env id p) := by
  unfold releaseInvoiceInner
  infer_instance

instance framed_releaseInvoice {p : Option (List ℕ)} :
    Framed (GroupFrame W M id) (releaseInvoice env id p) := by
  unfold releaseInvoice
  infer_instance

instance framed_refundTotals {token : Address} {xs : List (Address × ℤ)} :
    Framed (Frame V W M) (refundTotals env id token xs) := by
  unfold refundTotals
  infer_instance

instance framed_refundPositive {token : Address} {xs : List (Address × ℤ)} :
    Framed (Frame V W M) (refundPositive env id token xs) := by
  unfold refundPositive
  infer_instance

instance framed_returnBonus {token : Address} : Framed (Frame V W M) (returnBonus env id inv token) := by
  unfold returnBonus
  infer_instance

instance framed_refundPayers [Fact (ForwardsInto V inv)] :
    Framed (Frame V W M) (refundPayers env id inv) := by
  unfold refundPayers
  infer_instance

omit [Covers W M] [Fact (id ∈ W)] in
instance into_lazilyExpired [Fact (ForwardsInto V inv)] :
    Fact (ForwardsInto V (lazilyExpired env inv)) := by
  unfold lazilyExpired
  infer_instance

instance framed_startAuction [Fact (ForwardsInto V inv)] :
    Framed (Frame V W M) (startAuction env id inv) := by
  unfold startAuction
  infer_instance

instance framed_refund : Framed (Frame V W M) (refund env id) := by
  unfold refund
  infer_instance

instance framed_placeBid {a : Address} {x : ℤ} : Framed (Frame V W M) (placeBid env a id x) := by
  unfold placeBid
  infer_instance

instance framed_payWinner {token : Address} {w : ℕ × Bid} [Fact (ForwardsInto V inv)] :
    Framed (Frame V W M) (payWinner env id inv token w) := by
  unfold payWinner returnBids
  infer_instance

instance framed_closeWithoutBids {token : Address} [Fact (ForwardsInto V inv)] :
    Framed (Frame V W M) (closeWithoutBids env id inv token) := by
  unfold closeWithoutBids
  infer_instance

instance framed_settleAuction : Framed (Frame V W M) (settleAuction env id) := by
  have hclose : ∀ (inv : Inside V) token, Framed (Frame V W M) (closeAuction env id inv token) := by
    intro inv token
    unfold closeAuction
    split <;> infer_instance
  unfold settleAuction
  infer_instance

instance framed_cancelRefunds : Framed (Frame V W M) (cancelRefunds env id inv) := by
  unfold cancelRefunds cancelFunded cancelUnfunded refundCancelled
  infer_instance

omit [Covers W M] [Fact (id ∈ W)] in
instance into_cancelled [Fact (ForwardsInto V inv)] : Fact (ForwardsInto V (cancelled inv)) := by
  unfold cancelled
  infer_instance

instance framed_cancelInvoice {a : Address} : Framed (Frame V W M) (cancelInvoice env a id) := by
  unfold cancelInvoice
  infer_instance

instance framed_resolveByRefund [Fact (ForwardsInto V inv)] :
    Framed (Frame V W M) (resolveByRefund env id inv) := by
  unfold resolveByRefund
  infer_instance

instance framed_applyRule [Fact (ForwardsInto W inv)] :
    Framed (GroupFrame W M id) (applyRule env id inv) := by
  unfold applyRule
  split <;> infer_instance

instance framed_autoResolve : Framed (GroupFrame W M id) (autoResolve env id) := by
  unfold autoResolve
  infer_instance

instance framed_partialRefund {a : Address} {bps : ℕ} :
    Framed (Frame V W M) (partialRefund env a id bps) := by
  unfold partialRefund
  infer_instance

instance framed_claimRefund {a : Address} : Framed (Frame V W M) (claimRefund env a id) := by
  unfold claimRefund payClaim
  infer_instance

instance framed_withdraw {a : Address} : Framed (Frame V W M) (withdraw env id a) := by
  have hdrop : Framed (Frame V W M) (modifyEntry id fun e => e.dropPayer a) :=
    .of (.modify fun _ => frame_setEntry hid.out rfl fun _ => .inl)
  unfold withdraw
  infer_instance

instance framed_withdrawContribution {a : Address} :
    Framed (Frame V W M) (withdrawContribution env a id) := by
  have hclear : Framed (Frame V W M)
      (modifyEntry id fun e => { e with contribution := update e.contribution a 0 }) :=
    framed_note fun _ => rfl
  unfold withdrawContribution
  infer_instance

/-! ### Payments -/

instance loads_autoResume [Fact (ForwardsInto V inv)] : Loads V W M (autoResume env id inv) := by
  unfold autoResume
  split <;> infer_instance

instance loads_checkPayment {a : Address} {x : ℤ} : Loads V W M (checkPayment env a id x) := by
  unfold checkPayment
  infer_instance

instance loads_maybeReleaseMilestones [Fact (ForwardsInto V inv)] :
    Loads V W M (maybeReleaseMilestones env id inv) := by
  unfold maybeReleaseMilestones
  infer_instance

omit [Covers W M] [Fact (id ∈ W)] in
instance into_startHold [h : Fact (ForwardsInto V inv)] :
    Fact (ForwardsInto V (startHold env inv)) := by
  unfold startHold
  split
  · exact ⟨h.out⟩
  · exact h

instance framed_settlePayment [Fact (ForwardsInto W inv)] {x : ℤ} {a : Address} :
    Framed (GroupFrame W M id) (settlePayment env id inv x a) := by
  unfold settlePayment
  infer_instance

instance framed_creditPayment [Fact (ForwardsInto W inv)] {a : Address} {x y : ℤ} {b : Bool} :
    Framed (GroupFrame W M id) (creditPayment env a id inv x y b) := by
  unfold creditPayment
  refine .next fun credited => .next fun premium => .next fun _ => .next fun _ => .next fun _ => ?_
  refine .next fun s => .next fun credit => .next fun funded => ?_
  infer_instance

instance framed_pay {a : Address} {x : ℤ} {n : ℕ} {b : Bool} :
    Framed (GroupFrame W M id) (pay env a id x n b) := by
  unfold pay payInner
  infer_instance

instance framed_creditPoolPayment {a : Address} {p : InvoicePayment} [Fact (p.invoiceId ∈ W)] :
    Framed (GroupFrame W M p.invoiceId) (creditPoolPayment env a p) := by
  unfold creditPoolPayment
  infer_instance

instance framed_contribute {a : Address} {x : ℤ} : Framed (Frame V W M) (contribute env id a x) := by
  unfold contribute
  infer_instance

/-! ### Disputes, renewal and failed payouts -/

instance framed_setDisputeRecord {status : DisputeStatus} :
    Framed (Frame V W M) (setDisputeRecord id status) :=
  framed_note fun _ => rfl

instance framed_arbiterAction [Fact (ForwardsInto W inv)] {r : ResolveAction} :
    Framed (GroupFrame W M id) (arbiterAction env id inv r) := by
  unfold arbiterAction arbiterRefund
  cases r <;> infer_instance

instance framed_resolveDispute {a : Address} {r : ResolveAction} :
    Framed (GroupFrame W M id) (resolveDispute env id a r) := by
  unfold resolveDispute
  infer_instance

instance framed_applyOutcome [Fact (ForwardsInto V inv)] {o : DisputeOutcome} :
    Framed (Frame V W M) (applyOutcome env id inv o) := by
  unfold applyOutcome disputeRelease disputeRefund
  cases o <;> infer_instance

instance framed_resolveInvoiceDispute {a : Address} {o : DisputeOutcome} :
    Framed (Frame V W M) (resolveInvoiceDispute env id a o) := by
  unfold resolveInvoiceDispute
  infer_instance

instance framed_optOutRenewal {a : Address} : Framed (Frame V W M) (optOutRenewal env a id) := by
  unfold optOutRenewal
  infer_instance

end Calls

end StellarSplit.Split
