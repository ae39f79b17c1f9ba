import ClusterWatch.Poller

/-!
# Turns — what a turn takes, does and leaves

A turn goes through the replies that wait for its fetches, so its acts say everything about it.
`Settled now replies p t` collects what holds of the turn `t` of a poller `p` whose fetch finds
`replies` at the time `now`:

* the replies are those it took, in their order, followed by those it left;
* each fetch it issued, and the one it began with, has taken a reply, unless it still waits;
* a loop that goes on waits with nothing to take, or sleeps for the poller's interval, and has
  kept its handle;
* a reply that ends the loop is the last thing in the turn;
* the statuses it applied are the accepted ones among the replies it took.

`settle_settled` proves it by induction on the replies, `turn_settled` carries it to a turn at any
phase.
-/

namespace ClusterWatch

/-- Whether a loop ends with the fetch that a reply settles. -/
def Reply.Ends (r : Reply) : Prop := r = .panics ∨ r.dropsPoller = true

instance (r : Reply) : Decidable r.Ends := inferInstanceAs (Decidable (_ ∨ _))

/-- The status that a reply brings to a poller that is still there. -/
def Reply.accepted? : Reply → Option Status
  | .settles (.status s) false => some s
  | .settles (.status _) true | .settles .failure _ | .panics => none

namespace Act

/-- The reply that an act takes. -/
def reply? : Act → Option Reply
  | .took r => some r
  | .issued | .applied _ _ | .cancelled => none

/-- Whether an act issues a fetch. -/
def isIssue : Act → Bool
  | .issued => true
  | .took _ | .applied _ _ | .cancelled => false

/-- What an act applies, and to which view. -/
def applied? : Act → Option (Nat × Status)
  | .applied view s => some (view, s)
  | .issued | .took _ | .cancelled => none

/-- What an act accepts for a poller that writes to `view`. -/
def accepted? (view : Nat) : Act → Option (Nat × Status)
  | .took r => r.accepted?.map (view, ·)
  | .issued | .applied _ _ | .cancelled => none

/-- Whether a loop ends with an act. -/
def Ends : Act → Prop
  | .took r => r.Ends
  | .issued | .applied _ _ | .cancelled => False

end Act

/-- The fetch that is in flight at a phase, as a number. -/
def Phase.inFlight : Phase → Nat
  | .waiting => 1
  | .due | .sleeping _ => 0

/-- The fetch that is in flight behind a turn, as a number. -/
def Turn.inFlight (t : Turn) : Nat := (t.phase.map Phase.inFlight).getD 0

/-- What holds of the turn `t` at a phase of a poller `p` whose fetches find `replies`. -/
structure Settled (now : Nat) (phase : Phase) (replies : List Reply) (p : Poller) (t : Turn) :
    Prop where
  interval : t.poller.interval = p.interval
  view : t.poller.view = p.view
  rounds : t.poller.rounds = p.rounds
  replies : replies = t.acts.filterMap Act.reply? ++ t.poller.queue
  fetches : t.poller.fetches = p.fetches + t.acts.countP Act.isIssue
  balance : t.acts.countP Act.isIssue + phase.inFlight =
    (t.acts.filterMap Act.reply?).length + t.inFlight
  phase : ∀ ph, t.phase = some ph → t.poller.handle = p.handle ∧
    (ph = .waiting ∧ t.poller.queue = [] ∨
      ph = .sleeping (now + p.interval) ∧ 0 < p.interval)
  last : t.acts.Pairwise fun a _ => ¬ a.Ends
  ends : ∀ a ∈ t.acts, a.Ends → t.phase = none
  cancelled : Act.cancelled ∉ t.acts
  applied : p.handle ≠ .gone →
    t.acts.filterMap Act.applied? = t.acts.filterMap (Act.accepted? p.view)

namespace Poller

/-! ### One reply -/

/-- A reply that does not end the loop leaves its poller what it holds. -/
theorem afterTaking_handle_of_not_ends {p : Poller} {reply : Reply} {rest : List Reply}
    (h : ¬ reply.Ends) : (p.afterTaking reply rest).handle = p.handle := by
  have hd : reply.dropsPoller = false := by
    cases hd : reply.dropsPoller with
    | false => rfl
    | true => exact absurd (.inr hd) h
  simp [afterTaking, hd]

/-- A loop goes on with a reply just when neither the reply ends it nor its poller was gone. -/
theorem ends_iff {p : Poller} {reply : Reply} {rest : List Reply} :
    (reply = .panics ∨ (p.afterTaking reply rest).handle = .gone) ↔
      reply.Ends ∨ p.handle = .gone := by
  cases hd : reply.dropsPoller with
  | false => simp [afterTaking, Reply.Ends, hd]
  | true => simp [afterTaking, Reply.Ends, hd]

/-- Only statuses are applied, and only to the view of the poller. -/
theorem mem_applying {p : Poller} {reply : Reply} {a : Act} (h : a ∈ p.applying reply) :
    ∃ s, a = .applied p.view s := by
  simp only [applying] at h
  split at h
  · exact ⟨_, List.mem_singleton.1 h⟩
  · cases h
  · cases h

/-- What is applied of a reply that does not end the loop is what is accepted of it. -/
theorem filterMap_taking {p : Poller} {reply : Reply} (h : ¬ reply.Ends) :
    (.took reply :: p.applying reply).filterMap Act.applied? =
      (.took reply :: p.applying reply).filterMap (Act.accepted? p.view) := by
  rcases reply with ⟨s | _, drops⟩ | _
  · cases drops with
    | false => rfl
    | true => exact absurd (.inr rfl) h
  · rfl
  · exact absurd (.inl rfl) h

/-- A reply that ends the loop brings no status. -/
theorem accepted?_of_ends {reply : Reply} (h : reply.Ends) : reply.accepted? = none := by
  rcases reply with ⟨s | _, drops⟩ | _
  · cases drops with
    | false => rcases h with h | h <;> cases h
    | true => rfl
  · rfl
  · rfl

/-- What is applied is neither a reply taken nor a fetch issued. -/
theorem applying_inert (p : Poller) (reply : Reply) :
    (p.applying reply).filterMap Act.reply? = [] ∧ (p.applying reply).countP Act.isIssue = 0 := by
  refine ⟨List.filterMap_eq_nil_iff.2 fun a ha => ?_, List.countP_eq_zero.2 fun a ha => ?_⟩
  all_goals
    obtain ⟨s, rfl⟩ := mem_applying ha
    simp [Act.reply?, Act.isIssue]

@[simp] theorem filterMap_reply?_applying (p : Poller) (reply : Reply) :
    (p.applying reply).filterMap Act.reply? = [] := (applying_inert p reply).1

@[simp] theorem countP_isIssue_applying (p : Poller) (reply : Reply) :
    (p.applying reply).countP Act.isIssue = 0 := (applying_inert p reply).2

/-- A reply that does not end the loop, and what is applied of it, end nothing. -/
theorem not_ends_of_mem {p : Poller} {reply : Reply} (h : ¬ reply.Ends) {a : Act}
    (ha : a ∈ .took reply :: p.applying reply) : ¬ a.Ends := by
  rcases List.mem_cons.1 ha with rfl | ha
  · exact h
  · obtain ⟨s, rfl⟩ := mem_applying ha
    exact not_false

theorem cancelled_not_mem {p : Poller} {reply : Reply} :
    Act.cancelled ∉ .took reply :: p.applying reply := by
  intro h
  rcases List.mem_cons.1 h with h | h
  · cases h
  · obtain ⟨s, hs⟩ := mem_applying h
    cases hs

/-! ### The turn -/

/-- **What holds of a turn whose fetch waits**, by induction on the replies. -/
theorem settle_settled (now : Nat) (replies : List Reply) (p : Poller) :
    Settled now .waiting replies p (p.settle now replies) := by
  fun_induction settle now replies p with
  | case1 p =>
    exact {
      interval := rfl
      view := rfl
      rounds := rfl
      replies := rfl
      fetches := rfl
      balance := rfl
      phase := by rintro ph ⟨⟩; exact ⟨rfl, .inl ⟨rfl, rfl⟩⟩
      last := .nil
      ends := by simp
      cancelled := by simp
      applied := fun _ => rfl }
  | case2 reply rest p q h =>
    -- the reply ends the loop, and the rest of the queue stays
    exact {
      interval := rfl
      view := rfl
      rounds := rfl
      replies := rfl
      fetches := rfl
      balance := rfl
      phase := by rintro ph ⟨⟩
      last := List.pairwise_singleton _ _
      ends := fun _ _ _ => rfl
      cancelled := by simp
      applied := fun hg => by
        have hr := accepted?_of_ends ((ends_iff.1 h).resolve_right hg)
        simp [Act.applied?, Act.accepted?, hr] }
  | case3 reply rest p q h h0 t ih =>
    -- with no interval the turn goes on, with the fetch after this one
    obtain ⟨hr, hg⟩ := not_or.1 (mt ends_iff.2 h)
    have hq : q.handle = p.handle := afterTaking_handle_of_not_ends hr
    have hact : ∀ a ∈ .took reply :: q.applying reply, ¬ a.Ends := fun _ => not_ends_of_mem hr
    change Settled now .waiting rest { q with fetches := q.fetches + 1 } t at ih
    exact {
      interval := ih.interval
      view := ih.view
      rounds := ih.rounds
      replies := by simpa [List.filterMap_cons, Act.reply?] using ih.replies
      fetches := by
        have hf : t.poller.fetches = p.fetches + 1 + t.acts.countP Act.isIssue := ih.fetches
        simp [List.countP_cons, Act.isIssue, hf]
        omega
      balance := by
        have hb : t.acts.countP Act.isIssue + 1 =
          (t.acts.filterMap Act.reply?).length + t.inFlight := ih.balance
        simp [List.countP_cons, List.filterMap_cons, Act.isIssue, Act.reply?, Phase.inFlight,
          Turn.inFlight] at hb ⊢
        omega
      phase := fun ph hph => by
        obtain ⟨hh, hw⟩ := ih.phase ph hph
        exact ⟨hh.trans hq, hw⟩
      last := by
        refine List.pairwise_append.2 ⟨?_, List.pairwise_cons.2 ⟨fun _ _ => not_false, ih.last⟩,
          fun a ha _ _ => hact a ha⟩
        exact List.pairwise_of_forall_mem_list fun a ha _ _ => hact a ha
      ends := fun a ha he => by
        rcases List.mem_append.1 ha with ha | ha
        · exact absurd he (hact a ha)
        · rcases List.mem_cons.1 ha with rfl | ha
          · exact absurd he not_false
          · exact ih.ends a ha he
      cancelled := by
        intro ha
        rcases List.mem_append.1 ha with ha | ha
        · exact cancelled_not_mem ha
        · exact ih.cancelled (by simpa using ha)
      applied := fun _ => by
        have ha : t.acts.filterMap Act.applied? = t.acts.filterMap (Act.accepted? p.view) :=
          ih.applied (hq ▸ hg)
        rw [List.filterMap_append, List.filterMap_append, filterMap_taking hr]
        exact congrArg (_ ++ ·) ha }
  | case4 reply rest p q h h0 =>
    -- the loop goes to sleep
    obtain ⟨hr, hg⟩ := not_or.1 (mt ends_iff.2 h)
    have hact : ∀ a ∈ .took reply :: q.applying reply, ¬ a.Ends := fun _ => not_ends_of_mem hr
    exact {
      interval := rfl
      view := rfl
      rounds := rfl
      replies := by simp [Act.reply?]; rfl
      fetches := by simp [Act.isIssue]; rfl
      balance := by simp [Act.isIssue, Act.reply?, Turn.inFlight, Phase.inFlight]
      phase := by
        rintro ph ⟨⟩
        exact ⟨afterTaking_handle_of_not_ends hr, .inr ⟨rfl, Nat.pos_of_ne_zero h0⟩⟩
      last := List.pairwise_of_forall_mem_list fun a ha _ _ => hact a ha
      ends := fun a ha he => absurd he (hact a ha)
      cancelled := cancelled_not_mem
      applied := fun _ => filterMap_taking hr }

/-- The turn of a loop that issues a fetch; it had none in flight. -/
theorem issue_settled (now : Nat) {phase : Phase} (hphase : phase.inFlight = 0) (p : Poller) :
    Settled now phase p.queue p (p.issue now) := by
  have h := settle_settled now p.queue { p with fetches := p.fetches + 1 }
  exact {
    interval := h.interval
    view := h.view
    rounds := h.rounds
    replies := h.replies
    fetches := by
      have hf := h.fetches
      simp only [issue, List.countP_cons, Act.isIssue, if_true] at hf ⊢
      omega
    balance := by
      have hb := h.balance
      simp only [issue, List.countP_cons, Act.isIssue, if_true, hphase] at hb ⊢
      exact hb
    phase := h.phase
    last := List.pairwise_cons.2 ⟨fun _ _ => not_false, h.last⟩
    ends := fun a ha he => by
      rcases List.mem_cons.1 ha with rfl | ha
      · exact absurd he not_false
      · exact h.ends a ha he
    cancelled := fun ha => h.cancelled (by simpa [issue] using ha)
    applied := h.applied }

/-- **What holds of every turn.** -/
theorem turn_settled (now : Nat) (phase : Phase) (p : Poller) :
    Settled now phase p.queue p (p.turn now phase) := by
  cases phase with
  | due => exact issue_settled now rfl p
  | waiting => exact settle_settled now p.queue p
  | sleeping d => exact issue_settled now rfl p

/-- Behind its replies a poller holds what it held, unless a fetch has dropped it. -/
theorem handle_settle (now : Nat) (replies : List Reply) (p : Poller) :
    (p.settle now replies).poller.handle = p.handle ∨
      (p.settle now replies).poller.handle = .gone := by
  have htaking : ∀ (p : Poller) (r : Reply) (rest : List Reply),
      (p.afterTaking r rest).handle = p.handle ∨ (p.afterTaking r rest).handle = .gone := by
    intro p r rest
    cases hr : r.dropsPoller <;> simp [afterTaking, hr]
  fun_induction settle now replies p with
  | case1 p => exact .inl rfl
  | case2 reply rest p q h => exact htaking p reply rest
  | case3 reply rest p q h h0 t ih =>
      obtain ht | ht := ih
      · exact (htaking p reply rest).imp ht.trans ht.trans
      · exact .inr ht
  | case4 reply rest p q h h0 => exact htaking p reply rest

/-- Behind a turn a poller holds what it held, unless a fetch has dropped it. -/
theorem handle_turn (now : Nat) (phase : Phase) (p : Poller) :
    (p.turn now phase).poller.handle = p.handle ∨ (p.turn now phase).poller.handle = .gone := by
  cases phase with
  | waiting => exact handle_settle now p.queue p
  | _ => exact handle_settle now p.queue { p with fetches := p.fetches + 1 }

end Poller

end ClusterWatch
