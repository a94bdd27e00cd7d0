import StellarSplit.Host

/-!
# What movements do to a balance

The sum of selected movements, and the balance of the contract in a token after one more
movement and after a list of payments.
-/

namespace StellarSplit

variable {μ : Type} {l : List (Transfer μ)} {m : Transfer μ} {a : Address}

theorem tally_eq_sum_filter (p : Transfer μ → Bool) (l : List (Transfer μ)) :
    tally p l = ((l.filter p).map Transfer.amount).sum := by
  induction l with
  | nil => rfl
  | cons m l ih =>
      rw [tally_cons, ih]
      by_cases h : p m = true
      · rw [if_pos h, List.filter_cons_of_pos h, List.map_cons, List.sum_cons]
      · rw [if_neg h, List.filter_cons_of_neg h, zero_add]

theorem tally_all {p : Transfer μ → Bool} (h : ∀ m ∈ l, p m = true) : tally p l = (l.map Transfer.amount).sum := by
  rw [tally_eq_sum_filter, List.filter_eq_self.2 h]

theorem tally_reverse (p : Transfer μ → Bool) (l : List (Transfer μ)) : tally p l.reverse = tally p l := by
  rw [tally, List.map_reverse, List.sum_reverse, tally]

theorem held_cons (m : Transfer μ) (l : List (Transfer μ)) :
    held (m :: l) a = held l a +
      ((if m.token = a ∧ m.dst = currentContract then m.amount else 0) -
        if m.token = a ∧ m.src = currentContract then m.amount else 0) := by
  simp only [held, tally_cons, decide_eq_true_eq]
  ring

/-- What comes in from another address is held. -/
theorem held_receive (hsrc : m.src ≠ currentContract) (hdst : m.dst = currentContract) :
    held (m :: l) a = held l a + if m.token = a then m.amount else 0 := by
  rw [held_cons]
  simp [hsrc, hdst]

/-- A movement between others, or to the contract, takes nothing. -/
theorem held_le_of_src (hsrc : m.src ≠ currentContract) (hpos : 0 ≤ m.amount) :
    held l a ≤ held (m :: l) a := by
  rw [held_cons]
  simp only [hsrc, and_false, if_false, sub_zero]
  split_ifs <;> omega

/-- A payment takes at most its amount; one to the contract itself takes nothing. -/
theorem held_send (hpos : 0 ≤ m.amount) :
    held l a - (if m.token = a then m.amount else 0) ≤ held (m :: l) a := by
  have hin : 0 ≤ if m.token = a ∧ m.dst = currentContract then m.amount else 0 := by
    split_ifs
    · exact hpos
    · exact le_rfl
  have hout : (if m.token = a ∧ m.src = currentContract then m.amount else 0) ≤
      if m.token = a then m.amount else 0 := by
    split_ifs with hboth htoken htoken
    · exact le_rfl
    · exact absurd hboth.1 htoken
    · exact hpos
    · exact le_rfl
  rw [held_cons]
  omega

/-- Payments of one token take at most the sum of their amounts. -/
theorem held_send_all {w : List (Transfer μ)} {token : Address} (htoken : ∀ m ∈ w, m.token = token)
    (hpos : ∀ m ∈ w, 0 ≤ m.amount) :
    held l a - (if token = a then (w.map Transfer.amount).sum else 0) ≤ held (w ++ l) a := by
  induction w with
  | nil => simp
  | cons m w ih =>
      have hrest := ih (fun u hu => htoken u (List.mem_cons_of_mem m hu))
        fun u hu => hpos u (List.mem_cons_of_mem m hu)
      have hfirst := held_send (l := w ++ l) (a := a) (hpos m (by simp))
      rw [htoken m (by simp)] at hfirst
      rw [List.cons_append, List.map_cons, List.sum_cons]
      split_ifs at hfirst hrest ⊢ <;> omega

end StellarSplit
