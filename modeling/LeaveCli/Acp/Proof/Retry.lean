import LeaveCli.Acp.Proof.AtMostOnce

/-!
# Sending an accepted prompt again

`retry_quiet_iff`: once a prompt was accepted, every step of a later call with the same prompt
leaves everything as it is and ends in `duplicate = true`, exactly when the call finds its session
registered in the worker's workspace and not `working`, and no statement fails. The busy check
stands before the claim, so a retry that arrives during the turn it started is refused.
-/

namespace LeaveCli.Acp

open Lib LeaveCli.Core

/-- The step answers a call of `accept_prompt` for `p`: it is accepted, and no duplicate. -/
def Accepts (p : Prompt) (t : Transition Host Action Output) : Prop :=
  t.before.handler = some (.launching p) ∧
    t.output.reply = some (.ok (.accepted p.commandId false))

/-- The step is one of a call of `accept_prompt` for `p`. -/
def CallStep (p : Prompt) (t : Transition Host Action Output) : Prop :=
  (∃ handler, t.before.handler = some handler ∧ handler.prompt = some p) ∧
    ∃ fault, t.input = .proceed fault

/-- The step writes and sends nothing: it reads the session and goes on to the claim, or finds the
claim taken and replies `duplicate = true`. -/
def Quiet (p : Prompt) (t : Transition Host Action Output) : Prop :=
  t.after.store = t.before.store ∧ t.output.sent = none ∧
    (t.before.handler = some (.prompting p) ∧ t.output.reply = none ∧
        t.after.handler = some (.claiming p) ∨
      t.before.handler = some (.claiming p) ∧
        t.output.reply = some (.ok (.accepted p.commandId true)) ∧ t.after.handler = none)

/-- No statement fails, and the read finds the session in the worker's workspace and not busy. -/
def Unhindered (p : Prompt) (t : Transition Host Action Output) : Prop :=
  t.input = .proceed none ∧ (t.before.handler = some (.prompting p) →
    ∃ w row, t.before.worker = some w ∧
      t.before.store.getSession w.workspace.id p.sessionId = some row ∧ row.state ≠ .working)

/-! ## What stays true of an accepted command -/

/-- The command is claimed, and no call past its claim is under way for it. -/
structure Settled (c : Uuid) (h : Host) : Prop where
  claimed : c ∈ h.store.claimed
  handler : ∀ handler, h.handler = some handler → ¬ handler.holds c

theorem settled_move {h h' : Host} {a : Action} {o : Output} {c : Uuid} (hS : Settled c h)
    (hmove : Move h a o h') : Settled c h' := by
  constructor
  · rcases claimed_move hmove with hsame | ⟨p, -, -, hinsert⟩
    · exact hsame ▸ hS.claimed
    · exact hinsert ▸ Finset.mem_insert_of_mem hS.claimed
  · intro next hnext hholds
    obtain ⟨p, hprompt, rfl⟩ := prompt_of_holds hholds
    cases advance_of_move hmove hnext hprompt with
    | same next hbefore => exact hS.handler next hbefore hholds
    | received => cases hholds
    | read w session hworker hbefore htext hsession hworking => cases hholds
    | claimed hbefore hopen => exact hopen hS.claimed
    | marked hbefore => exact hS.handler _ hbefore hholds
    | recorded hbefore => exact hS.handler _ hbefore hholds

/-- A prompt past its first check is not blank. -/
def Worded (h : Host) : Prop :=
  ∀ handler p, h.handler = some handler → handler.prompt = some p → handler ≠ .prompting p →
    ¬ p.text.trim.isEmpty

theorem worded_move {h h' : Host} {a : Action} {o : Output} (hW : Worded h)
    (hmove : Move h a o h') : Worded h' := by
  intro next p hnext hprompt hfirst
  cases advance_of_move hmove hnext hprompt with
  | same next hbefore => exact hW next p hbefore hprompt hfirst
  | received => exact absurd rfl hfirst
  | read w session hworker hbefore htext hsession hworking => exact htext
  | claimed hbefore hopen => exact hW _ p hbefore rfl (by simp)
  | marked hbefore => exact hW _ p hbefore rfl (by simp)
  | recorded hbefore => exact hW _ p hbefore rfl (by simp)

/-! ## Retries -/

/-- The step that accepts a prompt ends its call. -/
theorem settled_of_accepts {h h' : Host} {a : Action} {o : Output} {p : Prompt} (hA : Audited h)
    (hmove : Move h a o h') (hhandler : h.handler = some (.launching p))
    (hreply : o.reply = some (.ok (.accepted p.commandId false))) : Settled p.commandId h' := by
  obtain ⟨v, hv, hlaunching⟩ := worker_of_handler hhandler
  have hclaimed := hA.claimed (c := p.commandId) hv hlaunching (by simp [Handler.holds])
  cases hmove with
  | proceed w handler fault effect hworker hstage heffect =>
    obtain rfl : v = w := Option.some.inj (hv.symm.trans hworker)
    obtain rfl : handler = .launching p := by simpa [hlaunching] using hstage.symm
    cases call_of_proceed heffect with
    | fail handler fault error => cases hreply
    | launch p =>
      refine ⟨hclaimed, ?_⟩
      intro next hnext
      cases hnext
  | answer w handler result effect hworker hstage heffect =>
    obtain rfl : v = w := Option.some.inj (hv.symm.trans hworker)
    obtain rfl : handler = .launching p := by simpa [hlaunching] using hstage.symm
    cases heffect
  | _ => cases hreply

/-- A call that replies with an error is not quiet. -/
theorem not_quiet {h : Host} {p : Prompt} {fault : Option Str} {error : Str}
    (hreply : (h.step (.proceed fault)).1.reply = some (.error error)) :
    ¬ Quiet p (host.fire h (.proceed fault)) := by
  intro hcase
  obtain ⟨-, -, ⟨-, hnone, -⟩ | ⟨-, haccepted, -⟩⟩ := hcase
  · have hnone : (h.step (.proceed fault)).1.reply = none := hnone
    rw [hreply] at hnone
    cases hnone
  · have haccepted : (h.step (.proceed fault)).1.reply =
        some (.ok (.accepted p.commandId true)) := haccepted
    rw [hreply] at haccepted
    cases haccepted

theorem unhindered_prompting_iff {h : Host} {w : Worker} {p : Prompt} (hworker : h.worker = some w)
    (hhandler : h.handler = some (.prompting p)) :
    Unhindered p (host.fire h (.proceed none)) ↔
      ∃ row, h.store.getSession w.workspace.id p.sessionId = some row ∧ row.state ≠ .working := by
  constructor
  · intro hcase
    obtain ⟨-, hread⟩ := hcase
    obtain ⟨v, row, hv, hrow, hidle⟩ := hread hhandler
    obtain rfl : v = w := Option.some.inj (hv.symm.trans hworker)
    exact ⟨row, hrow, hidle⟩
  · intro hcase
    obtain ⟨row, hrow, hidle⟩ := hcase
    exact ⟨rfl, fun _ => ⟨w, row, hworker, hrow, hidle⟩⟩

/-- A step of a retry, from a state where its command is settled. -/
theorem quiet_step_iff {h : Host} {p : Prompt} {fault : Option Str} {handler : Handler}
    (hS : Settled p.commandId h) (htext : ¬ p.text.trim.isEmpty)
    (hhandler : h.handler = some handler) (hprompt : handler.prompt = some p) :
    Quiet p (host.fire h (.proceed fault)) ↔ Unhindered p (host.fire h (.proceed fault)) := by
  obtain ⟨w, hworker, hstage⟩ := worker_of_handler hhandler
  have hsettled := hS.handler handler hhandler
  cases handler with
  | prompting q =>
    cases hprompt
    have hstep := step_proceed fault hworker hstage (if_neg htext)
    cases fault with
    | some error =>
      refine iff_of_false (not_quiet (by rw [hstep]; rfl)) ?_
      intro hcase
      obtain ⟨hinput, -⟩ := hcase
      cases hinput
    | none =>
      rw [unhindered_prompting_iff hworker hhandler]
      cases hsession : h.store.getSession w.workspace.id p.sessionId with
      | none =>
        rw [hsession] at hstep
        refine iff_of_false (not_quiet (by rw [hstep]; rfl)) ?_
        intro hcase
        obtain ⟨row, hrow, -⟩ := hcase
        cases hrow
      | some row =>
        rw [hsession] at hstep
        by_cases hworking : row.state = .working
        · simp only [hworking, if_true] at hstep
          refine iff_of_false (not_quiet (by rw [hstep]; rfl)) ?_
          intro hcase
          obtain ⟨row', hrow, hidle⟩ := hcase
          cases hrow
          exact hidle hworking
        · simp only [hworking, if_false] at hstep
          refine iff_of_true ⟨?_, ?_, .inl ⟨hhandler, ?_, ?_⟩⟩ ⟨row, rfl, hworking⟩
          · show (h.step _).2.store = h.store
            rw [hstep]
            rfl
          · show (h.step _).1.sent = none
            rw [hstep]
          · show (h.step _).1.reply = _
            rw [hstep]
            rfl
          · show (h.step _).2.handler = _
            rw [hstep]
            rfl
  | claiming q =>
    cases hprompt
    have hstep := step_proceed fault hworker hstage rfl
    cases fault with
    | some error =>
      refine iff_of_false (not_quiet (by rw [hstep]; rfl)) ?_
      intro hcase
      obtain ⟨hinput, -⟩ := hcase
      cases hinput
    | none =>
      have hclaim : h.store.claimCommand p.commandId = (h.store, .duplicate) :=
        if_pos hS.claimed
      rw [hclaim] at hstep
      refine iff_of_true ⟨?_, ?_, .inr ⟨hhandler, ?_, ?_⟩⟩ ⟨rfl, ?_⟩
      · show (h.step _).2.store = h.store
        rw [hstep]
        rfl
      · show (h.step _).1.sent = none
        rw [hstep]
      · show (h.step _).1.reply = _
        rw [hstep]
        rfl
      · show (h.step _).2.handler = _
        rw [hstep]
        rfl
      · intro hprompting
        cases hhandler.symm.trans hprompting
  | marking q =>
    cases hprompt
    simp [Handler.holds] at hsettled
  | recording q =>
    cases hprompt
    simp [Handler.holds] at hsettled
  | launching q =>
    cases hprompt
    simp [Handler.holds] at hsettled
  | _ => cases hprompt

theorem fresh_worded : Worded .fresh := by
  intro handler p hh
  cases hh

/-- Over any history: sending an accepted prompt again is quiet exactly when no statement fails and
its session is read as registered and not `working`. -/
theorem retry_quiet_iff (xs ys : List Action) (p : Prompt) (t₀ t : Transition Host Action Output)
    (ht₀ : t₀ ∈ host.run .fresh xs) (haccepts : Accepts p t₀) (ht : t ∈ host.run t₀.after ys)
    (hcall : CallStep p t) : Quiet p t ↔ Unhindered p t := by
  obtain ⟨hlaunching, hreply⟩ := haccepts
  have hsettled : Settled p.commandId t₀.after :=
    settled_of_accepts (run_audited ht₀).1 (run_move ht₀) hlaunching hreply
  have hworded : Worded t₀.before :=
    (Machine.run_invariant (fun h a hW => worded_move hW (step_move h a)) fresh_worded ht₀).1
  have htext : ¬ p.text.trim.isEmpty := hworded _ p hlaunching rfl (by simp)
  have hbefore : Settled p.commandId t.before :=
    (Machine.run_invariant (fun h a hS => settled_move hS (step_move h a)) hsettled ht).1
  obtain ⟨⟨handler, hhandler, hprompt⟩, fault, hinput⟩ := hcall
  rw [Machine.eq_fire_of_mem_run ht, hinput]
  exact quiet_step_iff hbefore htext hhandler hprompt

/-! ## A retry during its own turn -/

/-- The first start on a new computer, and a session. -/
def setUp : List Action :=
  [.start ⟨7, "repo", "/repo", false, true, false⟩, .startup none, .startup none, .startup none,
    .receive (.createSession "t"), .answer (.ok "s"), .proceed none, .proceed none]

def hello : Prompt := ⟨"s", "hello", 1⟩

def accept (p : Prompt) : List Action :=
  [.receive (.prompt p), .proceed none, .proceed none, .proceed none, .proceed none, .proceed none]

/-- What the busy check makes of a second call. -/
def refused : Option (Except Str Reply) :=
  some (.error "this session already has an active Devin turn")

theorem accepted_then_refused :
    ∃ t₀ ∈ host.run .fresh (setUp ++ accept hello),
      (t₀.before.handler = some (.launching hello) ∧
        t₀.output.reply = some (.ok (.accepted hello.commandId false))) ∧
      (host.step t₀.after (.receive (.prompt hello))).2.handler = some (.prompting hello) ∧
      (host.step (host.step t₀.after (.receive (.prompt hello))).2 (.proceed none)).1.reply =
        refused := by
  decide

/-- The read of the second call. -/
theorem second_call {t₀ : Transition Host Action Output}
    (hhandler : (host.step t₀.after (.receive (.prompt hello))).2.handler =
      some (.prompting hello)) :
    ∃ t ∈ host.run t₀.after [.receive (.prompt hello), .proceed none], CallStep hello t ∧
      t = host.fire (host.step t₀.after (.receive (.prompt hello))).2 (.proceed none) := by
  refine ⟨_, ?_, ⟨⟨_, hhandler, rfl⟩, none, rfl⟩, rfl⟩
  simp [Machine.run, host]

theorem retry_while_working_refused :
    ∃ t₀ ∈ host.run .fresh (setUp ++ accept hello), Accepts hello t₀ ∧
      ∃ t ∈ host.run t₀.after [.receive (.prompt hello), .proceed none], CallStep hello t ∧
        t.input = .proceed none ∧ ¬ Quiet hello t := by
  obtain ⟨t₀, ht₀, haccepts, hhandler, hreply⟩ := accepted_then_refused
  obtain ⟨t, ht, hcall, rfl⟩ := second_call hhandler
  exact ⟨t₀, ht₀, haccepts, _, ht, hcall, rfl, not_quiet hreply⟩

theorem retry_quiet_iff_hello :
    ∃ t₀ ∈ host.run .fresh (setUp ++ accept hello), Accepts hello t₀ ∧
      ∃ t ∈ host.run t₀.after [.receive (.prompt hello), .proceed none], CallStep hello t ∧
        (Quiet hello t ↔ Unhindered hello t) := by
  obtain ⟨t₀, ht₀, haccepts, hhandler, -⟩ := accepted_then_refused
  obtain ⟨t, ht, hcall, -⟩ := second_call hhandler
  exact ⟨t₀, ht₀, haccepts, t, ht, hcall,
    retry_quiet_iff (setUp ++ accept hello) _ hello t₀ t ht₀ haccepts ht hcall⟩

end LeaveCli.Acp
