import StellarSplit.Escrow.Settlement

/-!
# Bans of payers

A ban that was finalised as upheld is final: no appeal and no second
finalisation touches its entry, and the payer cannot deposit. Before that the
admin can lift it. A new `blacklist_payer` call for the payer starts over with
an entry that is not final.
-/

namespace StellarSplit.Escrow

open Exec Function Machine

variable {env : Env} {s t : Store} {v : Unit} {payer : Address}

theorem requireNamedAdmin_run {admin : Address} (hadmin : s.admin = some admin)
    (hauth : env.auth admin = true) (hother : admin ≠ currentContract) :
    requireNamedAdmin env admin s = .ok ((), s) := by
  simp [requireNamedAdmin, hadmin, hauth, hother]

/-- Only an entry that is not final can be finalised. -/
theorem finaliseBlacklist_ok {admin : Address} {uphold : Bool}
    (h : finaliseBlacklist env admin payer uphold s = .ok (v, t)) :
    ∃ e, s.blacklist payer = some e ∧ e.finalised = false ∧
      t = { s with
        blacklist := update s.blacklist payer
          (if uphold then some { e with finalised := true, upheld := true } else none) } := by
  unfold finaliseBlacklist at h
  obtain ⟨_, u, hadmin, h⟩ := bind_ok.1 h
  obtain rfl := requireNamedAdmin_ok hadmin
  simp only [bind_ok, get_ok, orError_ok, require_ok] at h
  obtain ⟨_, _, ⟨rfl, rfl⟩, e, _, ⟨hentry, rfl⟩, _, _, ⟨hopen, rfl⟩, h⟩ := h
  refine ⟨e, hentry, hopen, ?_⟩
  cases uphold with
  | true =>
      rw [if_pos rfl] at h
      rw [if_pos rfl]
      exact (set_ok.1 h).symm
  | false =>
      rw [if_neg (by simp)] at h
      rw [if_neg (by simp)]
      exact (set_ok.1 h).symm

theorem finaliseBlacklist_run {admin : Address} {e : BlacklistEntry} (hadmin : s.admin = some admin)
    (hauth : env.auth admin = true) (hother : admin ≠ currentContract)
    (hentry : s.blacklist payer = some e) (hopen : e.finalised = false) :
    finaliseBlacklist env admin payer false s =
      .ok ((), { s with blacklist := update s.blacklist payer none }) := by
  unfold finaliseBlacklist
  rw [bind_run (requireNamedAdmin_run hadmin hauth hother)]
  simp [hentry, hopen]

theorem finalised_of_isBanned {e : BlacklistEntry} (hban : isBanned (s.blacklist payer) = true)
    (hentry : s.blacklist payer = some e) : e.finalised = true := by
  rw [hentry] at hban
  simp only [isBanned, Bool.and_eq_true] at hban
  exact hban.1

/-- A final ban is kept by every call but a new ban of the same payer. -/
theorem step_ban {op : Op} (hban : isBanned (s.blacklist payer) = true)
    (hop : ∀ admin reason, op ≠ .blacklistPayer admin payer reason)
    (h : step (env, op) s = .ok (v, t)) : t.blacklist payer = s.blacklist payer := by
  cases op with
  | blacklistPayer admin other reason =>
      have hne : payer ≠ other := by
        rintro rfl
        exact hop admin reason rfl
      simp only [step, blacklistPayer, bind_ok, modify_ok] at h
      obtain ⟨_, u, hadmin, rfl⟩ := h
      obtain rfl := requireNamedAdmin_ok hadmin
      exact update_of_ne hne ..
  | submitAppeal other invoiceId appealHash =>
      simp only [step, submitAppeal, bind_ok, requireAuth_ok, get_ok, orError_ok, require_ok,
        set_ok] at h
      obtain ⟨_, _, ⟨-, rfl⟩, _, _, ⟨rfl, rfl⟩, e, _, ⟨hentry, rfl⟩, _, _, ⟨hopen, rfl⟩, _, _,
        ⟨-, rfl⟩, rfl⟩ := h
      by_cases hne : payer = other
      · subst hne
        rw [finalised_of_isBanned hban hentry] at hopen
        cases hopen
      · exact update_of_ne hne ..
  | finaliseBlacklist admin other uphold =>
      obtain ⟨e, hentry, hopen, rfl⟩ := finaliseBlacklist_ok h
      by_cases hne : payer = other
      · subst hne
        rw [finalised_of_isBanned hban hentry] at hopen
        cases hopen
      · exact update_of_ne hne ..
  | _ => exact congrFun ((step_side h).blacklist rfl) payer

/-- Through any calls that do not ban the payer anew, a ban that was finalised as upheld blocks
every deposit of the payer and every further finalisation; and a ban that is not final can be
lifted by the admin. -/
theorem upheld_ban_holds (hban : isBanned (s.blacklist payer) = true) {calls : List (Env × Op)}
    (hcalls : ∀ c ∈ calls, ∀ admin reason, c.2 ≠ .blacklistPayer admin payer reason) :
    (∀ env id amount r, deposit env payer id amount (runAll step s calls) ≠ .ok r ∧
      payInvoice env payer id amount (runAll step s calls) ≠ .ok r) ∧
    (∀ env admin uphold r, finaliseBlacklist env admin payer uphold (runAll step s calls) ≠ .ok r) ∧
    (∀ (u : Store) (e : BlacklistEntry) (admin : Address) (env : Env),
      u.blacklist payer = some e → e.finalised = false → u.admin = some admin →
      env.auth admin = true → admin ≠ currentContract →
      ∃ u', finaliseBlacklist env admin payer false u = .ok ((), u') ∧ u'.blacklist payer = none) := by
  have hkept : isBanned ((runAll step s calls).blacklist payer) = true := by
    refine runAll_induction (I := fun u => isBanned (u.blacklist payer) = true)
      (fun u c v u' hu hc hstep => ?_) hban ((along_true step s calls).and_mem hcalls)
    rw [step_ban hu hc.1 hstep]
    exact hu
  have hdeposit : ∀ env id amount r, deposit env payer id amount (runAll step s calls) ≠ .ok r := by
    rintro env id amount ⟨v, u⟩ hrun
    obtain ⟨inv, hd, -⟩ := deposit_ok.1 hrun
    rw [hd.notBanned] at hkept
    cases hkept
  refine ⟨fun env id amount r => ⟨hdeposit env id amount r, hdeposit env id amount r⟩, ?_, ?_⟩
  · rintro env admin uphold ⟨v, u⟩ hrun
    obtain ⟨e, hentry, hopen, -⟩ := finaliseBlacklist_ok hrun
    rw [finalised_of_isBanned hkept hentry] at hopen
    cases hopen
  · intro u e admin env hentry hopen hadmin hauth hother
    exact ⟨_, finaliseBlacklist_run hadmin hauth hother hentry hopen, update_self ..⟩

/-- The admin 1 bans payer 5 and upholds the ban; creator 2 has an invoice over 100. -/
def upheldBan : List (Env × Op) :=
  [(openEnv 0, .initializeEscrow 1), (openEnv 0, .createInvoice 2 9 100 50),
    (openEnv 1, .blacklistPayer 1 5 0), (openEnv 2, .finaliseBlacklist 1 5 true)]

theorem upheld_sample_blocks :
    ¬∃ env r, deposit env 5 0 10 (runAll step (reach upheldBan) [(openEnv 3, .submitAppeal 5 0 7)]) =
      .ok r := by
  rintro ⟨env, r, hrun⟩
  have hban : isBanned ((reach upheldBan).blacklist 5) = true := by decide
  exact ((upheld_ban_holds hban (by simp)).1 env 0 10 r).1 hrun

/-- After the upheld ban no finalisation reinstates the payer, and a second ban does it silently. -/
theorem upheld_ban_is_final_until_renewed :
    (∀ env admin uphold r, finaliseBlacklist env admin 5 uphold (reach upheldBan) ≠ .ok r) ∧
      isBanned ((reach upheldBan).blacklist 5) = true ∧
      (∃ r, deposit (openEnv 4) 5 0 10 (reach (upheldBan ++ [(openEnv 3, .blacklistPayer 1 5 0)])) =
        .ok r) := by
  refine ⟨?_, by decide, _, rfl⟩
  rintro env admin uphold ⟨v, u⟩ hrun
  obtain ⟨e, hentry, hopen, -⟩ := finaliseBlacklist_ok hrun
  have hban : isBanned ((reach upheldBan).blacklist 5) = true := by decide
  rw [finalised_of_isBanned hban hentry] at hopen
  cases hopen

end StellarSplit.Escrow
