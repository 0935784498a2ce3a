import LeaveCli.Host.Preview
import LeaveCli.Lib.Registry
import LeaveCli.Lib.Results

/-!
# A preview stays on its loopback origin

`contained_of_run`: whatever devices ask for and whatever pages the browser loads, in every state of
every run the browser was only told to go on with requests to the origin of the URL that a `create`
of the run was given, it was only navigated there, and every request it paused got one answer, in
order (`Contained`, `CreatesAt`).
That an origin is one place follows from what is written in it (`sameOrigin_of_origin_eq`).
`watched_of_run`: devices see a preview's screenshots in order, from where they subscribed.

`Guarded` is what one turn of a browser task preserves (`Guarded.captureTick`,
`Guarded.takeControl`, `Guarded.receive`).
-/

namespace LeaveCli.Host

open Lib LeaveCli.Core

/-! ## Origins -/

/-- What the code relies on of `Url::parse`: a scheme has no colon, the text of the host of an
`http` URL says which host it is, and a URL written out is read back. -/
structure UrlLaws (parse : Str → Option Url) : Prop where
  scheme : ∀ text url, parse text = some url → ':' ∉ url.scheme
  host : ∀ text₁ text₂ url₁ url₂, parse text₁ = some url₁ → parse text₂ = some url₂ →
    url₁.scheme = "http" → url₂.scheme = "http" →
    (url₁.hostStr.getD []).toAsciiLowercase = (url₂.hostStr.getD []).toAsciiLowercase →
    url₁.host = url₂.host
  asStr : ∀ text url, parse text = some url → parse url.asStr = some url

/-- An `http` URL of this machine, without credentials and fragment. -/
structure Url.Loopback (url : Url) : Prop where
  scheme : url.scheme = "http"
  host : ∃ host, url.host = some host ∧ host.isLoopback = true
  username : url.username = []
  password : url.password = none
  fragment : url.fragment = none

/-- Two URLs of one server. -/
structure Url.SameOrigin (url other : Url) : Prop where
  scheme : url.scheme = other.scheme
  host : url.host = other.host
  port : url.portOrKnownDefault.getD 80 = other.portOrKnownDefault.getD 80

theorem validateLoopbackUrl_eq_ok {parse : Str → Option Url} {text : Str} {url : Url} :
    validateLoopbackUrl parse text = .ok url ↔ parse text = some url ∧ url.Loopback := by
  rw [validateLoopbackUrl]
  cases parse text with
  | none => exact iff_of_false (fun h => nomatch h) (fun h => nomatch h.1)
  | some found =>
    rw [Option.elim_some, ite_error_eq_ok, ite_error_eq_ok, Except.ok.injEq, Option.some.injEq]
    constructor
    · intro h
      obtain ⟨hplain, hloopback, rfl⟩ := h
      simp only [not_or, not_not, Bool.not_eq_true,
        Option.isSome_eq_false_iff, Option.isNone_iff_eq_none] at hplain
      obtain ⟨hscheme, -, husername, hpassword, hfragment⟩ := hplain
      rw [Bool.not_eq_true, Bool.not_eq_false', Option.any_eq_true] at hloopback
      exact ⟨rfl, hscheme, hloopback, husername, hpassword, hfragment⟩
    · intro h
      obtain ⟨rfl, hscheme, ⟨host, hhost, hloopback⟩, husername, hpassword, hfragment⟩ := h
      simp [hscheme, hhost, hloopback, husername, hpassword, hfragment]

/-- A text is cut at its last colon in one way. -/
theorem eq_of_last_colon {a b d e : Str} (h : a ++ (":" : Str) ++ d = b ++ (":" : Str) ++ e)
    (hd : ':' ∉ d) (he : ':' ∉ e) : a = b ∧ d = e := by
  have hreverse : d.reverse ++ ':' :: a.reverse = e.reverse ++ ':' :: b.reverse := by
    simpa using congrArg List.reverse h
  have hcut := congrArg (Str.splitOnce ':') hreverse
  rw [Str.splitOnce_append (by simpa using hd), Str.splitOnce_append (by simpa using he),
    Option.some.injEq, Prod.mk.injEq, List.reverse_inj, List.reverse_inj] at hcut
  exact ⟨hcut.2, hcut.1⟩

/-- The text of an origin says which server it is. -/
theorem sameOrigin_of_origin_eq {parse : Str → Option Url} (hparse : UrlLaws parse)
    {text₁ text₂ : Str} {url approved : Url} (hurl : parse text₁ = some url)
    (happroved : parse text₂ = some approved) (hhttp : approved.scheme = "http")
    (h : origin url = origin approved) : url.SameOrigin approved := by
  obtain ⟨hfront, hport⟩ := eq_of_last_colon h (Str.not_mem_repr rfl) (Str.not_mem_repr rfl)
  have hcut := congrArg (Str.splitOnce ':') hfront
  rw [List.append_assoc, List.append_assoc] at hcut
  have hscheme : url.scheme = approved.scheme ∧
      (url.hostStr.getD []).toAsciiLowercase = (approved.hostStr.getD []).toAsciiLowercase := by
    have hleft := Str.splitOnce_append (hparse.scheme text₁ url hurl)
      (("//" : Str) ++ (url.hostStr.getD []).toAsciiLowercase)
    have hright := Str.splitOnce_append (hparse.scheme text₂ approved happroved)
      (("//" : Str) ++ (approved.hostStr.getD []).toAsciiLowercase)
    have hboth := (hleft.symm.trans hcut).trans hright
    rw [Option.some.injEq, Prod.mk.injEq] at hboth
    exact ⟨hboth.1, List.append_cancel_left hboth.2⟩
  refine ⟨hscheme.1, ?_, ?_⟩
  · exact hparse.host text₁ text₂ url approved hurl happroved (hscheme.1.trans hhttp) hhttp
      hscheme.2
  · have hvalue := congrArg (fun digits => Nat.ofDigitChars 10 digits 0) hport
    simp only [Nat.toList_repr, Nat.ofDigitChars_ten_toDigits] at hvalue
    exact UInt16.toNat_inj.1 hvalue

/-! ## One browser task -/

variable {ν : Type} {number : Nat → ν} {parse : Str → Option Url}

/-- A URL a preview of this origin may be navigated to. -/
def Navigable (parse : Str → Option Url) (taskOrigin url : Str) : Prop :=
  ∃ target, validateLoopbackUrl parse url = .ok target ∧ origin target = taskOrigin

namespace DevToolsCommand

/-- It answers a paused request. -/
def isAnswer (command : DevToolsCommand ν) : Bool :=
  command.method = "Fetch.continueRequest" || command.method = "Fetch.failRequest"

/-- If it navigates, then to a URL of this origin. -/
def Navigates (parse : Str → Option Url) (taskOrigin : Str) (command : DevToolsCommand ν) : Prop :=
  command.method = "Page.navigate" → ∃ url,
    command.params = some (.object [("url", .string url)]) ∧ Navigable parse taskOrigin url

/-- It is the answer to this request. -/
def Answers (parse : Str → Option Url) (taskOrigin : Str) (command : DevToolsCommand ν)
    (request : Str × Str) : Prop :=
  command = requestAnswer parse taskOrigin command.id request

theorem isAnswer_requestAnswer (taskOrigin : Str) (id : Nat) (request : Str × Str) :
    (requestAnswer (ν := ν) parse taskOrigin id request).isAnswer = true := by
  unfold requestAnswer
  split <;> rfl

theorem answers_requestAnswer (taskOrigin : Str) (id : Nat) (request : Str × Str) :
    (requestAnswer (ν := ν) parse taskOrigin id request).Answers parse taskOrigin request := by
  unfold Answers requestAnswer
  split <;> rfl

theorem navigates_of_ne {taskOrigin : Str} {command : DevToolsCommand ν}
    (h : command.method ≠ "Page.navigate") : command.Navigates parse taskOrigin :=
  fun hmethod => absurd hmethod h

/-- A request went on because its URL is of this origin. -/
theorem Answers.continued {taskOrigin : Str} {command : DevToolsCommand ν} {request : Str × Str}
    (h : command.Answers parse taskOrigin request)
    (hmethod : command.method = "Fetch.continueRequest") :
    command.params = some (.object [("requestId", .string request.1)]) ∧
      ∃ url, parse request.2 = some url ∧ origin url = taskOrigin := by
  rw [Answers, requestAnswer] at h
  split at h
  · rename_i hallowed
    obtain ⟨url, hurl, hsame⟩ := (Option.any_eq_true _ _).1 hallowed
    rw [decide_eq_true_eq] at hsame
    exact ⟨by rw [h], url, hurl, hsame⟩
  · have hfail : command.method = "Fetch.failRequest" := by rw [h]
    rw [hfail] at hmethod
    exact absurd hmethod (by decide)

theorem isAnswer_eq_false (id : Nat) {method : Str} (params : Option (Json ν))
    (hother : method ≠ "Fetch.continueRequest" ∧ method ≠ "Fetch.failRequest") :
    (DevToolsCommand.mk id method params).isAnswer = false := by
  rw [isAnswer, Bool.or_eq_false_iff, decide_eq_false_iff_not, decide_eq_false_iff_not]
  exact hother

/-- A command that neither answers nor navigates. -/
theorem harmless {taskOrigin : Str} (id : Nat) {method : Str} (params : Option (Json ν))
    (hother : method ≠ "Fetch.continueRequest" ∧ method ≠ "Fetch.failRequest")
    (hstays : method ≠ "Page.navigate") :
    (DevToolsCommand.mk id method params).isAnswer = false ∧
      (DevToolsCommand.mk id method params).Navigates parse taskOrigin :=
  ⟨isAnswer_eq_false id params hother, navigates_of_ne hstays⟩

theorem navigates_of_isAnswer {taskOrigin : Str} {command : DevToolsCommand ν}
    (h : command.isAnswer = true) : command.Navigates parse taskOrigin := by
  refine navigates_of_ne fun hmethod => ?_
  rw [isAnswer, hmethod] at h
  exact absurd h (by decide)

end DevToolsCommand

namespace PreviewSession

/-- The requests the browser said it paused. -/
def paused (session : PreviewSession ν) : List (Str × Str) :=
  session.received.filterMap pausedRequest

/-- The answers it got. -/
def answers (session : PreviewSession ν) : List (DevToolsCommand ν) :=
  session.sent.filter DevToolsCommand.isAnswer

/-- What holds of a preview between two turns of its task. -/
structure Guarded (parse : Str → Option Url) (session : PreviewSession ν) : Prop where
  waiting : ∀ url, .navigate url ∈ session.controls → Navigable parse session.approvedOrigin url
  navigates : ∀ command ∈ session.sent, command.Navigates parse session.approvedOrigin
  answers : List.Forall₂ (DevToolsCommand.Answers parse session.approvedOrigin) session.answers
    (session.paused.take session.answers.length)
  latest : session.paused.length ≤ session.answers.length + if session.running then 0 else 1
  frames : session.frames.sent = session.received.filterMap screenshot

variable {session : PreviewSession ν}

/-- Commands that answer nothing and stay on the origin may be sent. -/
theorem Guarded.send (h : Guarded parse session) {session' : PreviewSession ν}
    (more : List (DevToolsCommand ν)) (horigin : session'.approvedOrigin = session.approvedOrigin)
    (hcontrols : ∀ control ∈ session'.controls, control ∈ session.controls)
    (hframes : session'.frames = session.frames) (hreceived : session'.received = session.received)
    (hrunning : session'.running = true → session.running = true)
    (hsent : session'.sent = session.sent ++ more)
    (hmore : ∀ command ∈ more, command.isAnswer = false ∧
      command.Navigates parse session.approvedOrigin) : Guarded parse session' := by
  have hanswers : session'.answers = session.answers := by
    have hnone : more.filter DevToolsCommand.isAnswer = [] :=
      List.filter_eq_nil_iff.2 fun command hmem => by simp [(hmore command hmem).1]
    rw [PreviewSession.answers, hsent, List.filter_append, hnone, List.append_nil]
    rfl
  have hpaused : session'.paused = session.paused := by rw [paused, hreceived, paused]
  constructor
  · rw [horigin]
    exact fun url hurl => h.waiting url (hcontrols _ hurl)
  · rw [horigin, hsent]
    intro command hmem
    rcases List.mem_append.1 hmem with hold | hnew
    · exact h.navigates command hold
    · exact (hmore command hnew).2
  · rw [hanswers, hpaused, horigin]
    exact h.answers
  · rw [hanswers, hpaused]
    refine h.latest.trans (Nat.add_le_add_left ?_ _)
    by_cases hrun : session'.running = true
    · rw [if_pos hrun, if_pos (hrunning hrun)]
    · rw [if_neg hrun]
      split <;> omega
  · rw [hframes, hreceived]
    exact h.frames

theorem Guarded.captureTick (h : Guarded parse session) (sends : Bool) :
    Guarded parse (session.captureTick number sends) := by
  unfold PreviewSession.captureTick sendOrStop
  cases sends with
  | true =>
    refine h.send _ rfl (fun _ => id) rfl rfl id rfl fun command hmem => ?_
    rw [List.mem_singleton.1 hmem]
    exact DevToolsCommand.harmless _ _ (by decide) (by decide)
  | false =>
    exact h.send [] rfl (fun _ => id) rfl rfl (fun hrun => nomatch hrun)
      (List.append_nil _).symm fun _ hmem => nomatch hmem

/-- The messages of a control stay on the origin when it does. -/
theorem controlMessages_spec {taskOrigin : Str} (control : PreviewControl ν) (nextId : Nat)
    (hcontrol : ∀ url, control = .navigate url → Navigable parse taskOrigin url) :
    ∀ command ∈ (controlMessages number control nextId).1,
      command.isAnswer = false ∧ command.Navigates parse taskOrigin := by
  cases control with
  | navigate url =>
    intro command hmem
    rw [List.mem_singleton.1 hmem]
    exact ⟨DevToolsCommand.isAnswer_eq_false _ _ (by decide),
      fun _ => ⟨url, rfl, hcontrol url rfl⟩⟩
  | click x y =>
    intro command hmem
    rcases List.mem_cons.1 hmem with rfl | hmem
    · exact DevToolsCommand.harmless _ _ (by decide) (by decide)
    · rw [List.mem_singleton.1 hmem]
      exact DevToolsCommand.harmless _ _ (by decide) (by decide)
  | text text =>
    intro command hmem
    rw [List.mem_singleton.1 hmem]
    exact DevToolsCommand.harmless _ _ (by decide) (by decide)

theorem Guarded.takeControl (h : Guarded parse session) (sends : Nat) :
    Guarded parse (session.takeControl number sends) := by
  unfold PreviewSession.takeControl
  split
  · exact h
  · rename_i control controls hcontrols
    refine h.send _ rfl (fun c hc => hcontrols ▸ List.mem_cons_of_mem _ hc) rfl rfl id rfl
      fun command hmem => ?_
    refine controlMessages_spec control session.nextId (fun url hurl => ?_) command
      (List.mem_of_mem_take hmem)
    exact h.waiting url (hcontrols ▸ hurl ▸ List.mem_cons_self)

/-! ## What the browser sends -/

/-- What a message does to a preview: a screenshot is passed on, and a paused request is answered,
unless the answer cannot be sent. -/
theorem receive_value (session : PreviewSession ν) (value : Json ν) (sends : Bool) :
    session.receive parse sends (.value value) =
      { session with
        frames := (screenshot value).elim session.frames session.frames.send
        nextId := if (pausedRequest value).isSome then increment session.nextId else session.nextId
        received := session.received ++ [value]
        sent := session.sent ++ if sends then ((pausedRequest value).map
          (requestAnswer parse session.approvedOrigin (increment session.nextId))).toList else []
        running := session.running && (sends || (pausedRequest value).isNone) } := by
  rw [PreviewSession.receive]
  generalize screenshot value = data
  generalize pausedRequest value = request
  cases data <;> cases request <;> cases sends <;> simp [publish, answerPaused, sendOrStop]

theorem paused_receive (session : PreviewSession ν) (value : Json ν) (sends : Bool) :
    (session.receive parse sends (.value value)).paused =
      session.paused ++ (pausedRequest value).toList := by
  rw [receive_value, paused, List.filterMap_append, paused]
  congr 1

theorem answers_receive (session : PreviewSession ν) (value : Json ν) (sends : Bool) :
    (session.receive parse sends (.value value)).answers =
      session.answers ++ if sends then ((pausedRequest value).map (requestAnswer parse
        session.approvedOrigin (increment session.nextId))).toList else [] := by
  rw [receive_value, answers, List.filter_append, answers]
  congr 1
  cases sends with
  | false => rfl
  | true =>
    cases pausedRequest value with
    | none => rfl
    | some request => simp [DevToolsCommand.isAnswer_requestAnswer]

theorem Guarded.receive (h : Guarded parse session) (hrun : session.running = true)
    (message : DevToolsMessage ν) (sends : Bool) :
    Guarded parse (session.receive parse sends message) := by
  cases message with
  | other => exact h
  | closed =>
    exact h.send [] rfl (fun _ => id) rfl rfl (fun hclosed => nomatch hclosed)
      (List.append_nil _).symm fun _ hmem => nomatch hmem
  | value value =>
    have hlength : session.paused.length = session.answers.length := by
      have hlatest := h.latest
      have htaken := h.answers.length_eq
      rw [if_pos hrun] at hlatest
      rw [List.length_take] at htaken
      omega
    have hall := h.answers
    rw [← hlength, List.take_length] at hall
    constructor
    · rw [receive_value]
      exact h.waiting
    · rw [receive_value]
      intro command hmem
      rcases List.mem_append.1 hmem with hold | hnew
      · exact h.navigates command hold
      · have hanswer : command.isAnswer = true := by
          cases sends with
          | false => cases hnew
          | true =>
            obtain ⟨request, -, rfl⟩ := Option.map_eq_some_iff.1 (Option.mem_toList.1 hnew)
            exact DevToolsCommand.isAnswer_requestAnswer _ _ _
        exact DevToolsCommand.navigates_of_isAnswer hanswer
    · rw [paused_receive, answers_receive]
      rw [show (session.receive parse sends (.value value)).approvedOrigin =
        session.approvedOrigin by rw [receive_value]]
      cases sends with
      | false =>
        rw [if_neg Bool.false_ne_true, List.append_nil, ← hlength, List.take_left]
        exact hall
      | true =>
        rw [if_pos rfl]
        cases pausedRequest value with
        | none =>
          rw [Option.map_none, Option.toList_none, List.append_nil, Option.toList_none,
            List.append_nil, ← hlength, List.take_length]
          exact hall
        | some request =>
          rw [Option.map_some, Option.toList_some, Option.toList_some, List.length_append,
            ← hlength]
          rw [List.take_of_length_le (by simp)]
          exact List.rel_append hall (.cons (DevToolsCommand.answers_requestAnswer _ _ _) .nil)
    · rw [paused_receive, answers_receive, List.length_append, List.length_append, hlength,
        Nat.add_assoc, Nat.add_le_add_iff_left, receive_value]
      cases pausedRequest value <;> cases sends <;> simp [hrun]
    · rw [receive_value]
      show ((screenshot value).elim session.frames session.frames.send).sent = _
      rw [List.filterMap_append, ← h.frames]
      cases hframe : screenshot value <;> simp [hframe]

/-! ## One turn -/

/-- What a turn of the task leaves alone: the origin, and the frames that were published. -/
structure Continues (session session' : PreviewSession ν) : Prop where
  origin : session'.approvedOrigin = session.approvedOrigin
  frames : session'.frames = session.frames ∨ ∃ data, session'.frames = session.frames.send data

theorem continues_captureTick (session : PreviewSession ν) (sends : Bool) :
    Continues session (session.captureTick number sends) := by
  unfold PreviewSession.captureTick sendOrStop
  split <;> exact ⟨rfl, .inl rfl⟩

theorem continues_takeControl (session : PreviewSession ν) (sends : Nat) :
    Continues session (session.takeControl number sends) := by
  unfold PreviewSession.takeControl
  split <;> exact ⟨rfl, .inl rfl⟩

theorem continues_receive (session : PreviewSession ν) (message : DevToolsMessage ν)
    (sends : Bool) : Continues session (session.receive parse sends message) := by
  cases message with
  | other => exact ⟨rfl, .inl rfl⟩
  | closed => exact ⟨rfl, .inl rfl⟩
  | value value =>
    rw [receive_value]
    refine ⟨rfl, ?_⟩
    cases screenshot value with
    | none => exact .inl rfl
    | some data => exact .inr ⟨data, rfl⟩

theorem firstCommands_spec {approved : Url} (hreads : parse approved.asStr = some approved)
    (happroved : approved.Loopback) : ∀ command ∈ firstCommands (ν := ν) approved,
      command.isAnswer = false ∧ command.Navigates parse (origin approved) := by
  intro command hmem
  simp only [firstCommands, List.mem_cons, List.not_mem_nil, or_false] at hmem
  rcases hmem with rfl | rfl | rfl | rfl
  · exact DevToolsCommand.harmless _ _ (by decide) (by decide)
  · exact DevToolsCommand.harmless _ _ (by decide) (by decide)
  · exact DevToolsCommand.harmless _ _ (by decide) (by decide)
  · exact ⟨DevToolsCommand.isAnswer_eq_false _ _ (by decide), fun _ => ⟨approved.asStr, rfl,
      approved, validateLoopbackUrl_eq_ok.2 ⟨hreads, happroved⟩, rfl⟩⟩

theorem guarded_launched {approved : Url} (hreads : parse approved.asStr = some approved)
    (happroved : approved.Loopback) :
    Guarded parse (PreviewSession.launched (ν := ν) approved) := by
  have hspec := firstCommands_spec (ν := ν) hreads happroved
  have hanswers : (PreviewSession.launched (ν := ν) approved).answers = [] :=
    List.filter_eq_nil_iff.2 fun command hmem => by simp [(hspec command hmem).1]
  constructor
  · exact fun url hurl => nomatch hurl
  · exact fun command hmem => (hspec command hmem).2
  · rw [hanswers]
    exact .nil
  · exact Nat.zero_le _
  · rfl

/-- What is promised of a preview that was created at `approved`: that is on this machine, the
browser was only sent there, only requests to it went on, and each request it paused was answered,
in order, but for the last one when the browser could not be reached any more. -/
structure Contained (parse : Str → Option Url) (approved : Url) (session : PreviewSession ν) :
    Prop where
  loopback : approved.Loopback
  navigates : ∀ command ∈ session.sent, command.method = "Page.navigate" → ∃ text url,
    command.params = some (.object [("url", .string text)]) ∧ parse text = some url ∧
      url.Loopback ∧ url.SameOrigin approved
  continues : ∀ command ∈ session.sent, command.method = "Fetch.continueRequest" →
    ∃ id text url, command.params = some (.object [("requestId", .string id)]) ∧
      (id, text) ∈ session.paused ∧ parse text = some url ∧ url.SameOrigin approved
  answers : List.Forall₂ (DevToolsCommand.Answers parse (origin approved)) session.answers
    (session.paused.take session.answers.length)
  latest : session.paused.length ≤ session.answers.length + if session.running then 0 else 1

theorem Guarded.contained (h : Guarded parse session) (hparse : UrlLaws parse) {text : Str}
    {approved : Url} (happroved : validateLoopbackUrl parse text = .ok approved)
    (horigin : session.approvedOrigin = origin approved) : Contained parse approved session := by
  obtain ⟨hreads, hloopback⟩ := validateLoopbackUrl_eq_ok.1 happroved
  refine ⟨hloopback, ?_, ?_, horigin ▸ h.answers, h.latest⟩
  · intro command hmem hmethod
    obtain ⟨url, hparams, target, htarget, hsame⟩ := h.navigates command hmem hmethod
    obtain ⟨hurl, hlocal⟩ := validateLoopbackUrl_eq_ok.1 htarget
    exact ⟨url, target, hparams, hurl, hlocal, sameOrigin_of_origin_eq hparse hurl hreads
      hloopback.scheme (hsame.trans horigin)⟩
  · intro command hmem hmethod
    have hanswer : command ∈ session.answers :=
      List.mem_filter.2 ⟨hmem, by rw [DevToolsCommand.isAnswer, hmethod]; rfl⟩
    obtain ⟨request, hrequest, hanswers⟩ := exists_mem_of_forall₂ h.answers command hanswer
    obtain ⟨hparams, url, hurl, hsame⟩ := hanswers.continued hmethod
    exact ⟨request.1, request.2, url, hparams, List.mem_of_mem_take hrequest, hurl,
      sameOrigin_of_origin_eq hparse hurl hreads hloopback.scheme (hsame.trans horigin)⟩

end PreviewSession

/-! ## All previews -/

namespace Previews

/-- What holds of a manager between two steps. -/
structure Safe (parse : Str → Option Url) (enabled chrome : Bool) (s : Previews ν) : Prop where
  owner : s.enabled = enabled ∧ s.chrome = chrome
  granted : Registry.All s.sessions fun _ _ => enabled = true ∧ chrome = true
  sessions : Registry.All s.sessions fun _ session => session.Guarded parse
  sockets : Registry.All s.sockets fun _ socket => ∃ session,
    s.sessions socket.previewId = some session ∧ socket.frames.Follows session.frames

variable {s : Previews ν} {enabled chrome : Bool}

theorem safe_new (enabled chrome : Bool) :
    (new (ν := ν) enabled chrome).Safe parse enabled chrome :=
  ⟨⟨rfl, rfl⟩, Registry.all_empty, Registry.all_empty, Registry.all_empty⟩

theorem approve_eq_ok {url : Str} {width height : UInt16} {approved : Url} :
    s.approve parse url width height = .ok approved → s.enabled = true ∧ s.chrome = true ∧
      validateLoopbackUrl parse url = .ok approved := by
  intro h
  rw [approve, ite_error_eq_ok, ite_error_eq_ok] at h
  obtain ⟨henabled, hchrome, h⟩ := h
  obtain ⟨found, hfound, h⟩ := bind_eq_ok.1 h
  obtain ⟨-, h⟩ := ite_error_eq_ok.1 h
  exact ⟨by simpa using henabled, by simpa using hchrome,
    hfound.trans (congrArg _ (Except.ok.inj h))⟩

/-- A new entry, or one that goes on from the one before it, leaves the sockets where they are. -/
theorem Safe.withSession (h : s.Safe parse enabled chrome) {previewId : Uuid}
    {session : PreviewSession ν}
    (hgranted : enabled = true ∧ chrome = true) (hsession : session.Guarded parse)
    (hframes : ∀ old, s.sessions previewId = some old →
      session.frames = old.frames ∨ ∃ data, session.frames = old.frames.send data) :
    (s.withSession previewId session).Safe parse enabled chrome := by
  refine ⟨h.owner, h.granted.update previewId hgranted, h.sessions.update previewId hsession, ?_⟩
  refine h.sockets.mono fun _ socket hsocket => ?_
  obtain ⟨old, hold, hfollows⟩ := hsocket
  by_cases hid : socket.previewId = previewId
  · refine ⟨session, ?_, ?_⟩
    · exact Registry.update_eq_some.2 (.inl ⟨hid, rfl⟩)
    · rcases hframes old (hid ▸ hold) with hsame | ⟨data, hmore⟩
      · rwa [hsame]
      · rw [hmore]
        exact hfollows.send data
  · exact ⟨old, Registry.update_eq_some.2 (.inr ⟨hid, hold⟩), hfollows⟩

theorem Safe.taskStep (h : s.Safe parse enabled chrome) (previewId : Uuid)
    {turn : PreviewSession ν → PreviewSession ν}
    (hcontinues : ∀ session, PreviewSession.Continues session (turn session))
    (hguarded : ∀ session : PreviewSession ν, session.Guarded parse → session.running = true →
      (turn session).Guarded parse) : (s.taskStep previewId turn).Safe parse enabled chrome := by
  unfold Previews.taskStep
  cases hsession : s.sessions previewId with
  | none => exact h
  | some session =>
    rw [Option.elim_some]
    split
    · rename_i hrun
      have hold := h.sessions previewId session hsession
      refine h.withSession (h.granted previewId session hsession) (hguarded session hold hrun)
        fun old hget => ?_
      rw [hsession, Option.some.injEq] at hget
      rw [← hget]
      exact (hcontinues session).frames
    · exact h

theorem Safe.withSocket (h : s.Safe parse enabled chrome) (id : Nat) {socket : PreviewSocket}
    (hsocket : ∃ session, s.sessions socket.previewId = some session ∧
      socket.frames.Follows session.frames) : (s.withSocket id socket).Safe parse enabled chrome :=
  ⟨h.owner, h.granted, h.sessions, h.sockets.update id hsocket⟩

theorem controlRefused_eq_none {session : PreviewSession ν} {control : PreviewControl ν}
    (h : controlRefused parse session control = none) :
    ∀ url, control = .navigate url → Navigable parse session.approvedOrigin url := by
  intro url hurl
  subst hurl
  simp only [controlRefused] at h
  cases htarget : validateLoopbackUrl parse url with
  | error e =>
    rw [htarget] at h
    cases h
  | ok target =>
    rw [htarget] at h
    by_cases hsame : origin target = session.approvedOrigin
    · exact ⟨target, htarget, hsame⟩
    · simp [hsame] at h

theorem Safe.control (h : s.Safe parse enabled chrome) (previewId : Uuid)
    (control : PreviewControl ν) :
    (s.control parse previewId control).2.Safe parse enabled chrome := by
  unfold Previews.control
  split
  · exact h
  · rename_i session hsession
    split
    · exact h
    · rename_i hallowed
      split
      · exact h
      · split
        · exact h
        · have hold := h.sessions previewId session hsession
          refine h.withSession (h.granted previewId session hsession) ?_ fun old hget => ?_
          · refine ⟨fun url hurl => ?_, hold.navigates, hold.answers, hold.latest, hold.frames⟩
            rcases List.mem_append.1 hurl with hwaiting | hnew
            · exact hold.waiting url hwaiting
            · exact controlRefused_eq_none hallowed url (List.mem_singleton.1 hnew).symm
          · rw [hsession, Option.some.injEq] at hget
            exact .inl (hget ▸ rfl)

theorem Safe.create (h : s.Safe parse enabled chrome) (hparse : UrlLaws parse) {previewId : Uuid}
    (hnew : s.sessions previewId = none) (url : Str) (width height : UInt16)
    (launch : Except Str Unit) :
    (s.create parse previewId url width height launch).2.Safe parse enabled chrome := by
  unfold Previews.create
  split
  · exact h
  · rename_i approved happrove
    split
    · exact h
    · obtain ⟨henabled, hchrome, hvalid⟩ := approve_eq_ok happrove
      obtain ⟨hreads, hloopback⟩ := validateLoopbackUrl_eq_ok.1 hvalid
      refine h.withSession ⟨h.owner.1 ▸ henabled, h.owner.2 ▸ hchrome⟩
        (PreviewSession.guarded_launched (hparse.asStr url approved hreads) hloopback)
        fun old hget => ?_
      rw [hnew] at hget
      cases hget

theorem safe_step (hparse : UrlLaws parse) (h : s.Safe parse enabled chrome) (action : Action ν) :
    (s.step number parse action).2.Safe parse enabled chrome := by
  cases action with
  | create previewId url width height launch =>
    simp only [step]
    split
    · exact h
    · rename_i hnew
      exact h.create hparse (by simpa using hnew) url width height launch
  | control previewId control => exact h.control previewId control
  | captureTick previewId sends =>
    exact h.taskStep previewId (fun session => session.continues_captureTick sends)
      fun session hsession _ => hsession.captureTick sends
  | takeControl previewId sends =>
    exact h.taskStep previewId (fun session => session.continues_takeControl sends)
      fun session hsession _ => hsession.takeControl sends
  | receive previewId message sends =>
    exact h.taskStep previewId (fun session => session.continues_receive message sends)
      fun session hsession hrun => hsession.receive hrun message sends
  | subscribe socket previewId headers =>
    simp only [step]
    split
    · exact h
    · unfold Previews.subscribe
      split
      · exact h
      · split
        · exact h
        · rename_i session hsession
          exact h.withSocket socket ⟨session, hsession, Subscriber.follows_subscribe _⟩
  | frame socket =>
    simp only [step, Previews.frame]
    cases hsocket : s.sockets socket with
    | none => exact h
    | some watcher =>
      obtain ⟨session, hsession, hfollows⟩ := h.sockets socket watcher hsocket
      rw [Option.elim_some, hsession, Option.elim_some]
      split
      · exact h.withSocket socket ⟨session, hsession, hfollows.receive⟩
      · exact h
  | disconnect socket =>
    simp only [step]
    cases hsocket : s.sockets socket with
    | none => exact h
    | some watcher => exact h.withSocket socket (h.sockets socket watcher hsocket)

theorem safe_final (number : Nat → ν) (hparse : UrlLaws parse) (enabled chrome : Bool)
    (actions : List (Action ν)) :
    ((machine number parse).final (new enabled chrome) actions).Safe parse enabled chrome :=
  Machine.final_invariant (M := machine number parse) (P := Safe parse enabled chrome)
    (fun _ action h => safe_step hparse h action) (safe_new enabled chrome) actions

/-! ## Where a preview was created -/

/-- A transition that created a preview at the URL `approved`. -/
def CreatesAt (parse : Str → Option Url) (previewId : Uuid) (approved : Url)
    (t : Transition (Previews ν) (Action ν) Answer) : Prop :=
  ∃ url width height, t.input = .create previewId url width height (.ok ()) ∧
    t.output = .created (.ok ⟨previewId, approved.asStr⟩) ∧ parse url = some approved

/-- Every preview was created by one of the transitions, and is restricted to the origin of the URL
it was created at. -/
def Created (parse : Str → Option Url) (log : List (Transition (Previews ν) (Action ν) Answer))
    (s : Previews ν) : Prop :=
  Registry.All s.sessions fun previewId session => ∃ approved, approved.Loopback ∧
    session.approvedOrigin = origin approved ∧ ∃ t ∈ log, CreatesAt parse previewId approved t

variable {log : List (Transition (Previews ν) (Action ν) Answer)}

theorem Created.append (h : Created parse log s)
    (more : List (Transition (Previews ν) (Action ν) Answer)) : Created parse (log ++ more) s := by
  refine h.mono fun previewId session hsession => ?_
  obtain ⟨approved, hloopback, horigin, t, ht, hcreates⟩ := hsession
  exact ⟨approved, hloopback, horigin, t, List.mem_append_left more ht, hcreates⟩

/-- A preview that goes on keeps its origin. -/
theorem Created.continue (h : Created parse log s) {previewId : Uuid}
    {session session' : PreviewSession ν} (hsession : s.sessions previewId = some session)
    (horigin : session'.approvedOrigin = session.approvedOrigin) :
    Created parse log (s.withSession previewId session') := by
  refine Registry.All.update h previewId ?_
  obtain ⟨approved, hloopback, hsame, hcreates⟩ := h previewId session hsession
  exact ⟨approved, hloopback, horigin.trans hsame, hcreates⟩

theorem Created.taskStep (h : Created parse log s) (previewId : Uuid)
    {turn : PreviewSession ν → PreviewSession ν}
    (hcontinues : ∀ session, PreviewSession.Continues session (turn session)) :
    Created parse log (s.taskStep previewId turn) := by
  unfold Previews.taskStep
  cases hsession : s.sessions previewId with
  | none => exact h
  | some session =>
    rw [Option.elim_some]
    split
    · exact h.continue hsession (hcontinues session).origin
    · exact h

theorem step_create (number : Nat → ν) (s : Previews ν) (previewId : Uuid) (url : Str)
    (width height : UInt16) (launch : Except Str Unit) :
    (s.step number parse (.create previewId url width height launch)).2 = s ∨
      ∃ approved, launch = .ok () ∧ validateLoopbackUrl parse url = .ok approved ∧
        s.step number parse (.create previewId url width height launch) =
          (.created (.ok ⟨previewId, approved.asStr⟩),
            s.withSession previewId (.launched approved)) := by
  simp only [step, Previews.create]
  split
  · exact .inl rfl
  cases happrove : s.approve parse url width height with
  | error e => exact .inl rfl
  | ok approved =>
    cases launch with
    | error e => exact .inl rfl
    | ok started => exact .inr ⟨approved, rfl, (approve_eq_ok happrove).2.2, rfl⟩

theorem created_step (h : Created parse log s) (action : Action ν) :
    Created parse (log ++ [(machine number parse).fire s action])
      (s.step number parse action).2 := by
  have hold := h.append [(machine number parse).fire s action]
  cases action with
  | create previewId url width height launch =>
    rcases step_create number s previewId url width height launch with
      hsame | ⟨approved, rfl, hvalid, hstep⟩
    · rwa [hsame]
    · obtain ⟨hreads, hloopback⟩ := validateLoopbackUrl_eq_ok.1 hvalid
      rw [congrArg Prod.snd hstep]
      exact Registry.All.update hold previewId ⟨approved, hloopback, rfl, _,
        List.mem_append_right log (List.mem_singleton_self _), url, width, height, rfl,
        congrArg Prod.fst hstep, hreads⟩
  | control previewId control =>
    simp only [step, Previews.control]
    split
    · exact hold
    · rename_i session hsession
      split
      · exact hold
      · split
        · exact hold
        · split
          · exact hold
          · exact hold.continue hsession rfl
  | captureTick previewId sends =>
    exact hold.taskStep previewId fun session => session.continues_captureTick sends
  | takeControl previewId sends =>
    exact hold.taskStep previewId fun session => session.continues_takeControl sends
  | receive previewId message sends =>
    exact hold.taskStep previewId fun session => session.continues_receive message sends
  | subscribe socket previewId headers =>
    simp only [step]
    split
    · exact hold
    · unfold Previews.subscribe
      split
      · exact hold
      · split <;> exact hold
  | frame socket =>
    simp only [step, Previews.frame]
    cases s.sockets socket with
    | none => exact hold
    | some watcher =>
      rw [Option.elim_some]
      cases s.sessions watcher.previewId with
      | none => exact hold
      | some session =>
        rw [Option.elim_some]
        split <;> exact hold
  | disconnect socket =>
    simp only [step]
    cases s.sockets socket with
    | none => exact hold
    | some watcher => exact hold

/-- `http://localhost:3000/` -/
def localUrl : Url :=
  ⟨"http", [], none, some (.domain "localhost"), some "localhost", some 3000, none,
    "http://localhost:3000/"⟩

/-- `http://example.com/` -/
def exampleUrl : Url :=
  ⟨"http", [], none, some (.domain "example.com"), some "example.com", some 80, none,
    "http://example.com/"⟩

/-- Reads these two URLs. -/
def parseTwo (text : Str) : Option Url :=
  if text = localUrl.asStr then some localUrl
  else if text = exampleUrl.asStr then some exampleUrl
  else none

theorem parseTwo_cases {text : Str} {url : Url} (h : parseTwo text = some url) :
    url = localUrl ∨ url = exampleUrl := by
  rw [parseTwo] at h
  split at h
  · exact .inl (Option.some.inj h).symm
  split at h
  · exact .inr (Option.some.inj h).symm
  · cases h

theorem urlLaws_parseTwo : UrlLaws parseTwo := by
  constructor
  · intro text url h
    rcases parseTwo_cases h with rfl | rfl <;> decide
  · intro text₁ text₂ url₁ url₂ h₁ h₂ _ _
    rcases parseTwo_cases h₁ with rfl | rfl <;> rcases parseTwo_cases h₂ with rfl | rfl <;> decide
  · intro text url h
    rcases parseTwo_cases h with rfl | rfl <;> decide

/-- A preview whose page asks for itself and for another server. -/
def visit : List (Action Nat) :=
  let paused (id url : Str) : DevToolsMessage Nat := .value (.object [
    ("method", .string "Fetch.requestPaused"),
    ("params", .object [("requestId", .string id), ("request", .object [("url", .string url)])])])
  [.create 1 "http://localhost:3000/" 800 600 (.ok ()),
    .receive 1 (paused "a" "http://localhost:3000/") true,
    .receive 1 (paused "b" "http://example.com/") true]

/-- What a device sees of a preview are its screenshots since it subscribed, in order, and without a
gap as long as it never lagged. -/
theorem watched_of_run (number : Nat → ν) (hparse : UrlLaws parse) (enabled chrome : Bool)
    (actions : List (Action ν)) (id : Nat) (socket : PreviewSocket)
    (hsocket : ((machine number parse).final (new enabled chrome) actions).sockets id =
      some socket) : ∃ session,
        ((machine number parse).final (new enabled chrome) actions).sessions socket.previewId =
          some session ∧
        let shots := (session.received.filterMap screenshot).drop socket.frames.first
        socket.frames.got.Sublist shots ∧
          (socket.frames.lagged = false → socket.frames.got <+: shots) := by
  have hsafe := safe_final number hparse enabled chrome actions
  obtain ⟨session, hsession, hfollows⟩ := hsafe.sockets id socket hsocket
  have hframes := (hsafe.sessions socket.previewId session hsession).frames
  refine ⟨session, hsession, ?_, fun hlagged => ?_⟩
  · rw [← hframes]
    exact hfollows.got_sublist
  · rw [← hframes]
    exact hfollows.got_isPrefix hlagged

/-- A device watches a preview from `h`; the browser brings a screenshot before and one after. -/
def watching : List (Action Nat) :=
  let shot (data : Str) : DevToolsMessage Nat :=
    .value (.object [("result", .object [("data", .string data)])])
  [.create 1 "http://localhost:3000/" 800 600 (.ok ()),
    .receive 1 (shot "a") true,
    .subscribe 0 1 [("host", [104]), ("origin", [104, 116, 116, 112, 58, 47, 47, 104])],
    .receive 1 (shot "b") true,
    .frame 0]

theorem watched_of_watching : ∃ session,
    ((machine id parseTwo).final (new true true) watching).sessions 1 = some session ∧
      let shots := (session.received.filterMap screenshot).drop 1
      (["b"] : List Str).Sublist shots ∧ (false = false → (["b"] : List Str) <+: shots) :=
  watched_of_run id urlLaws_parseTwo true true watching 0 ⟨1, ⟨1, 2, ["b"], false⟩, true⟩ rfl

end Previews

end LeaveCli.Host
