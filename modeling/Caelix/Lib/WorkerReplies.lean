import Caelix.Lib.Workers

/-!
# What workers learn from their server

A reply that is not a failure was given when its call was executed, so it keeps what the
server knew then.

* `reachable_replies`: what holds of a reply when its call is executed holds from then on.
* `reachable_tokens`: a token that the server gives out once is known to one worker only.
* `steps_worker`, `steps_started`: once a job is no longer assigned, only what is on its way
  starts, once each.
-/

namespace Workers

open Interaction Relation

variable {σ Job Call : Type} {Reply : Call → Type} {α : Type} {program : Job → Proc Call Reply α}
  {server : Server σ Job Call Reply} {start : σ} {s t : State σ program}

/-- An event of a worker is an old one, or the reply to a call that failed or has just been
executed. -/
inductive EventOf (server : Server σ Job Call Reply) (s t : State σ program) (m : Nat)
    (e : Event Reply) : Prop
  | old {w : Worker program} (hWorker : s.worker m = some w) (h : e ∈ w.history)
  | failed (h : server.failure e.1 e.2)
  | executed {job : Job} (h : server.execute s.server job e.1 t.server e.2)
      (hCalls : t.executed = s.executed ++ [(m, e.1)])

theorem eventOf_resume {n : Nat} {w : Worker program} (hWorker : s.worker n = some w) {c : Call}
    {next : Reply c → Proc Call Reply α} (hRest : w.rest = .call c next) {r : Reply c}
    (hNew : EventOf server s t n ⟨c, r⟩) {m : Nat} {v : Worker program}
    (hm : (s.setWorker n (w.resume hRest r)).worker m = some v) {e : Event Reply}
    (he : e ∈ v.history) : EventOf server s t m e := by
  by_cases hmn : m = n
  · subst hmn
    rw [setWorker_self] at hm
    obtain rfl := Option.some.inj hm
    rcases List.mem_append.mp he with he | he
    · exact .old hWorker he
    · rwa [List.mem_singleton.mp he]
  · rw [setWorker_of_ne s _ hmn] at hm
    exact .old hm he

theorem step_event (h : Step server s t) {m : Nat} {v : Worker program} (hm : t.worker m = some v)
    {e : Event Reply} (he : e ∈ v.history) : EventOf server s t m e := by
  cases h with
  | change _ | assign _ => exact .old hm he
  | late _ _ _ => exact .old hm he
  | @start job n _ _ _ _ =>
    by_cases hmn : m = n
    · subst hmn
      rw [show _ = some (Worker.start program job) from setWorker_self ..] at hm
      obtain rfl := Option.some.inj hm
      cases he
    · exact .old ((setWorker_of_ne s _ hmn).symm.trans hm) he
  | call hWorker _ hRest hExecute => exact eventOf_resume hWorker hRest (.executed hExecute rfl) hm he
  | replyLost hWorker _ hRest _ hFailure => exact eventOf_resume hWorker hRest (.failed hFailure) hm he
  | fail hWorker _ hRest hFailure => exact eventOf_resume hWorker hRest (.failed hFailure) hm he
  | @stop n w _ _ hWorker _ _ =>
    by_cases hmn : m = n
    · subst hmn
      rw [show _ = some w.stop from setWorker_self ..] at hm
      obtain rfl := Option.some.inj hm
      exact .old hWorker he
    · exact .old ((setWorker_of_ne s _ hmn).symm.trans hm) he

theorem step_executed (h : Step server s t) :
    t.executed = s.executed ∨ ∃ n c, t.executed = s.executed ++ [(n, c)] := by
  cases h with
  | change _ | assign _ | start _ _ | fail _ _ _ _ | stop _ _ _ => exact .inl rfl
  | call _ _ _ _ | replyLost _ _ _ _ _ | late _ _ _ => exact .inr ⟨_, _, rfl⟩

/-! ## Replies -/

/-- What the executed calls say about a reply. -/
structure ReplyInvariant (server : Server σ Job Call Reply) (I : σ → List Call → Prop)
    (K : List Call → Event Reply → Prop) : Prop where
  executed : ∀ {x x' job c r calls}, server.execute x job c x' r → I x calls →
    K (calls ++ [c]) ⟨c, r⟩
  append : ∀ {calls c e}, K calls e → K (calls ++ [c]) e

theorem reachable_replies {I : σ → List Call → Prop} {K : List Call → Event Reply → Prop}
    (hI : Invariant server I) (hK : ReplyInvariant server I K) (hStart : I start [])
    (h : Reachable server program start s) {n : Nat} {w : Worker program}
    (hWorker : s.worker n = some w) {e : Event Reply} (he : e ∈ w.history) :
    server.failure e.1 e.2 ∨ K (s.executed.map Prod.snd) e := by
  induction h generalizing n w with
  | refl => cases hWorker
  | @tail s t hReach hStep ih =>
    cases step_event hStep hWorker he with
    | old hOld he =>
      refine (ih hOld he).imp id fun hKnown => ?_
      rcases step_executed hStep with hSame | ⟨m, c, hMore⟩
      · rwa [hSame]
      · rw [hMore, List.map_append]
        exact hK.append hKnown
    | failed hFailed => exact .inl hFailed
    | executed hExecute hCalls =>
      right
      rw [hCalls, List.map_append]
      exact hK.executed hExecute (reachable_server hI hStart hReach)

/-! ## Tokens -/

/-- The server gives out every token once. -/
structure Tokens {τ : Type} (server : Server σ Job Call Reply) (token : Event Reply → Option τ)
    (Used : σ → τ → Prop) : Prop where
  fresh : ∀ {x x' job c r k}, server.execute x job c x' r → token ⟨c, r⟩ = some k →
    ¬ Used x k ∧ Used x' k
  stable : ∀ k, Stable server fun x => Used x k
  failure : ∀ {c r}, server.failure c r → token ⟨c, r⟩ = none

variable {τ : Type} {token : Event Reply → Option τ} {Used : σ → τ → Prop} {k : τ}

theorem reachable_used (hToken : Tokens server token Used) (h : Reachable server program start s)
    {n : Nat} {w : Worker program} (hWorker : s.worker n = some w) {e : Event Reply}
    (he : e ∈ w.history) (hk : token e = some k) : Used s.server k := by
  induction h generalizing n w with
  | refl => cases hWorker
  | tail _ hStep ih =>
    cases step_event hStep hWorker he with
    | old hOld he => exact step_stable (hToken.stable k) hStep (ih hOld he)
    | failed hFailed => cases (hToken.failure hFailed).symm.trans hk
    | executed hExecute _ => exact (hToken.fresh hExecute hk).2

/-- Workers that know the same token are the same. -/
theorem reachable_tokens (hToken : Tokens server token Used) (h : Reachable server program start s)
    {n m : Nat} {w v : Worker program} (hn : s.worker n = some w) (hm : s.worker m = some v)
    {e e' : Event Reply} (he : e ∈ w.history) (he' : e' ∈ v.history) (hk : token e = some k)
    (hk' : token e' = some k) : n = m := by
  induction h generalizing n m w v with
  | refl => cases hn
  | tail hReach hStep ih =>
    cases step_event hStep hn he with
    | failed hFailed => cases (hToken.failure hFailed).symm.trans hk
    | old hOld hMem =>
      cases step_event hStep hm he' with
      | failed hFailed => cases (hToken.failure hFailed).symm.trans hk'
      | old hOld' hMem' => exact ih hOld hOld' hMem hMem'
      | executed hExecute _ =>
        exact absurd (reachable_used hToken hReach hOld hMem hk) (hToken.fresh hExecute hk').1
    | executed hExecute hCalls =>
      cases step_event hStep hm he' with
      | failed hFailed => cases (hToken.failure hFailed).symm.trans hk'
      | old hOld' hMem' =>
        exact absurd (reachable_used hToken hReach hOld' hMem' hk') (hToken.fresh hExecute hk).1
      | executed _ hCalls' =>
        have hLast := List.append_cancel_left (hCalls.symm.trans hCalls')
        exact congrArg Prod.fst (List.cons.inj hLast).1

/-! ## Jobs that are no longer assigned -/

section

variable {D : σ → Prop} {p : Job → Bool} (hD : Stable server D)
  (hNo : ∀ {x x' job}, D x → server.assign x job x' → p job = false) (hs : D s.server)
  (h : ReflTransGen (Step server) s t)

include hD hNo hs h

theorem steps_assigned : D t.server ∧ ∀ job ∈ t.assigned, p job → job ∈ s.assigned := by
  induction h with
  | refl => exact ⟨hs, fun _ hJob _ => hJob⟩
  | tail _ hStep ih =>
    refine ⟨step_stable hD hStep ih.1, fun job hJob hp => ?_⟩
    rcases step_assigned hStep hJob with hOld | hAssign
    · exact ih.2 job hOld hp
    · cases hp.symm.trans (hNo ih.1 hAssign)

/-- A worker of such a job was there, or its job was on its way. -/
theorem steps_worker {n : Nat} {w : Worker program} (hWorker : t.worker n = some w) (hp : p w.job) :
    (∃ w', s.worker n = some w' ∧ w'.job = w.job) ∨ w.job ∈ s.assigned := by
  induction h generalizing w with
  | refl => exact .inl ⟨w, hWorker, rfl⟩
  | tail hSteps hStep ih =>
    rcases step_worker hStep hWorker with ⟨v, hv, hJob⟩ | hAssigned
    · rw [← hJob]
      exact ih hv (hJob ▸ hp)
    · exact .inr ((steps_assigned hD hNo hs hSteps).2 w.job hAssigned hp)

end

/-- A worker that has started since, with such a job. -/
def Started (p : Job → Bool) (s t : State σ program) (n : Nat) : Prop :=
  s.worker n = none ∧ ∃ w, t.worker n = some w ∧ p w.job

theorem Started.kept {p : Job → Bool} {r : State σ program} {n : Nat} (hWorkers : Kept s t)
    (h : Started p r t n) : Started p r s n := by
  obtain ⟨hFree, w, hWorker, hp⟩ := h
  obtain ⟨v, hv, hJob⟩ := hWorkers n w hWorker
  exact ⟨hFree, v, hv, hJob ▸ hp⟩

/-- A step starts such a job at the expense of those on their way. -/
theorem step_started {p : Job → Bool} {r : State σ program} (h : Step server s t)
    (hNo : ∀ job, server.assign s.server job t.server → p job = false) {ns : List Nat}
    (hNodup : ns.Nodup) (hns : ∀ n ∈ ns, Started p r t n) :
    ∃ ms : List Nat, ms.Nodup ∧ (∀ n ∈ ms, Started p r s n) ∧
      ns.length + t.assigned.countP p ≤ ms.length + s.assigned.countP p := by
  cases step_job h with
  | kept hWorkers hAssigned =>
    exact ⟨ns, hNodup, fun n hn => (hns n hn).kept hWorkers, hAssigned ▸ Nat.le_refl _⟩
  | @assigned job hWorkers hAssigned h =>
    refine ⟨ns, hNodup, fun n hn => (hns n hn).kept hWorkers, ?_⟩
    rw [hAssigned, List.countP_append, List.countP_singleton, if_neg (by simp [hNo job h])]
    exact Nat.le_refl _
  | @started job n before later _ hWorker hOthers hBefore hAssigned =>
    refine ⟨ns.erase n, hNodup.erase n, fun m hm => ?_, ?_⟩
    · obtain ⟨hmn, hMem⟩ := hNodup.mem_erase_iff.mp hm
      obtain ⟨hFree, w, hw, hp⟩ := hns m hMem
      exact ⟨hFree, w, (hOthers m hmn).symm.trans hw, hp⟩
    · rw [hAssigned, hBefore, List.countP_append, List.countP_append, List.countP_cons]
      by_cases hn : n ∈ ns
      · obtain ⟨-, w, hw, hp⟩ := hns n hn
        obtain rfl := Option.some.inj (hWorker.symm.trans hw)
        have hJob : p job = true := hp
        rw [if_pos hJob, List.length_erase_of_mem hn]
        omega
      · rw [List.erase_of_not_mem hn]
        omega

/-- No more workers start with such a job than were on their way. -/
theorem steps_started {D : σ → Prop} {p : Job → Bool} (hD : Stable server D)
    (hNo : ∀ {x x' job}, D x → server.assign x job x' → p job = false) (hs : D s.server)
    (h : ReflTransGen (Step server) s t) {ns : List Nat} (hNodup : ns.Nodup)
    (hns : ∀ n ∈ ns, Started p s t n) : ns.length + t.assigned.countP p ≤ s.assigned.countP p := by
  induction h generalizing ns with
  | refl =>
    cases ns with
    | nil => simp
    | cons n ns =>
      obtain ⟨hFree, w, hw, -⟩ := hns n List.mem_cons_self
      cases hFree.symm.trans hw
  | tail hSteps hStep ih =>
    have hNow := (steps_assigned hD hNo hs hSteps).1
    obtain ⟨ms, hms, hStarted, hLe⟩ := step_started hStep (fun job => hNo hNow) hNodup hns
    exact hLe.trans (ih hms hStarted)

end Workers
