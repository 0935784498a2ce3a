import LeaveCli.Lib.Run

/-!
# A client and a server over two queues

What a client and a server say to each other over a link that keeps the order, may lose what is
under way and adds nothing. `machine serve` is that link, where `serve` answers one request. The
rules, over every order of the moves:

* `served_sublist`: what is served was asked, in that order and once at most;
* `heard_sublist`: what is heard was answered, in that order and once at most;
* `answers_served`: the answers are those of a server that gets the served requests one by one;
* `Machine.simulates`: what two machines say agrees up to the first output that halts, when every
  step keeps them related.
-/

namespace Lib

namespace Machine

variable {σ ι ω σ' ι' ω' : Type*} {M : Machine σ ι ω} {N : Machine σ' ι' ω'}

/-- The outputs of a run before the one that halts. -/
def spoken (M : Machine σ ι ω) (s : σ) (xs : List ι) : List ω :=
  (M.outputs s xs).takeWhile fun o => !M.halts o

theorem spoken_cons (s : σ) (x : ι) (xs : List ι) : M.spoken s (x :: xs) =
    if M.halts (M.step s x).1 then [] else (M.step s x).1 :: M.spoken (M.step s x).2 xs := by
  rw [spoken, outputs, run_cons, List.map_cons, output_fire]
  split
  · rename_i hhalt
    simp [hhalt]
  · rename_i hhalt
    simp [hhalt, spoken, outputs]

/-- A machine that steps related to one that never halts says what that one says. -/
theorem simulates {R : σ → σ' → Prop} {O : ω → ω' → Prop} {C : Transition σ ι ω → Prop}
    (f : ι → ι') (hgoes : ∀ o, N.halts o = false)
    (hstep : ∀ s s' x, R s s' → C (M.fire s x) → M.halts (M.step s x).1 = false →
      O (M.step s x).1 (N.step s' (f x)).1 ∧ R (M.step s x).2 (N.step s' (f x)).2)
    {s : σ} {s' : σ'} (hs : R s s') {xs : List ι} (hC : ∀ t ∈ M.run s xs, C t) :
    ∃ n, List.Forall₂ O (M.spoken s xs) (N.outputs s' ((xs.take n).map f)) := by
  induction xs generalizing s s' with
  | nil => exact ⟨0, .nil⟩
  | cons x xs ih =>
    rw [run_cons] at hC
    obtain ⟨hfirst, hrest⟩ := List.forall_mem_cons.1 hC
    rw [spoken_cons]
    split
    · exact ⟨0, .nil⟩
    · rename_i hhalt
      rw [if_neg hhalt] at hrest
      obtain ⟨hout, hnext⟩ := hstep s s' x hs hfirst (by simpa using hhalt)
      obtain ⟨n, hsaid⟩ := ih hnext hrest
      refine ⟨n + 1, ?_⟩
      rw [List.take_succ_cons, List.map_cons, outputs, run_cons, hgoes,
        if_neg Bool.false_ne_true, List.map_cons, output_fire]
      exact .cons hout hsaid

end Machine

namespace Exchange

variable {σ α β : Type*}

/-- The server, and what is under way in each direction. -/
structure Link (σ α β : Type*) where
  server : σ
  requests : List α
  answers : List β

inductive Move (α : Type*)
  | ask (request : α)
  /-- The server takes the next request. -/
  | serve
  /-- The client takes the next answer. -/
  | hear
  | loseRequest
  | loseAnswer
  | idle

/-- What one move says. -/
structure Event (α β : Type*) where
  asked : Option α := none
  served : Option (α × β) := none
  heard : Option β := none

def step (serve : σ → α → σ × β) (l : Link σ α β) : Move α → Event α β × Link σ α β
  | .ask request => ({ asked := some request }, { l with requests := l.requests ++ [request] })
  | .serve =>
    match l.requests with
    | [] => ({}, l)
    | request :: requests =>
      ({ served := some (request, (serve l.server request).2) },
        ⟨(serve l.server request).1, requests, l.answers ++ [(serve l.server request).2]⟩)
  | .hear =>
    match l.answers with
    | [] => ({}, l)
    | answer :: answers => ({ heard := some answer }, { l with answers })
  | .loseRequest => ({}, { l with requests := l.requests.tail })
  | .loseAnswer => ({}, { l with answers := l.answers.tail })
  | .idle => ({}, l)

def machine (serve : σ → α → σ × β) : Machine (Link σ α β) (Move α) (Event α β) where
  step := step serve
  halts _ := false

def asked (events : List (Event α β)) : List α := events.filterMap Event.asked

def served (events : List (Event α β)) : List (α × β) := events.filterMap Event.served

def heard (events : List (Event α β)) : List β := events.filterMap Event.heard

variable {serve : σ → α → σ × β}

theorem outputs_cons (l : Link σ α β) (move : Move α) (moves : List (Move α)) :
    (machine serve).outputs l (move :: moves) =
      (step serve l move).1 :: (machine serve).outputs (step serve l move).2 moves := rfl

/-- What is served was asked, in that order and once at most. -/
theorem served_sublist (l : Link σ α β) (moves : List (Move α)) :
    ((served ((machine serve).outputs l moves)).map Prod.fst).Sublist
      (l.requests ++ asked ((machine serve).outputs l moves)) := by
  induction moves generalizing l with
  | nil => exact List.nil_sublist _
  | cons move moves ih =>
    have hrest := ih (step serve l move).2
    rw [outputs_cons]
    cases move with
    | ask request => simpa [step, served, asked] using hrest
    | serve =>
      cases hrequests : l.requests with
      | nil => simpa [step, hrequests, served, asked] using hrest
      | cons request requests => simpa [step, hrequests, served, asked] using hrest
    | hear =>
      cases hanswers : l.answers with
      | nil => simpa [step, hanswers, served, asked] using hrest
      | cons answer answers => simpa [step, hanswers, served, asked] using hrest
    | loseRequest =>
      exact hrest.trans ((List.tail_sublist l.requests).append (List.Sublist.refl _))
    | loseAnswer => exact hrest
    | idle => exact hrest

/-- What is heard was answered, in that order and once at most. -/
theorem heard_sublist (l : Link σ α β) (moves : List (Move α)) :
    (heard ((machine serve).outputs l moves)).Sublist
      (l.answers ++ (served ((machine serve).outputs l moves)).map Prod.snd) := by
  induction moves generalizing l with
  | nil => exact List.nil_sublist _
  | cons move moves ih =>
    have hrest := ih (step serve l move).2
    rw [outputs_cons]
    cases move with
    | ask request => simpa [step, served, heard] using hrest
    | serve =>
      cases hrequests : l.requests with
      | nil => simpa [step, hrequests, served, heard] using hrest
      | cons request requests => simpa [step, hrequests, served, heard] using hrest
    | hear =>
      cases hanswers : l.answers with
      | nil => simpa [step, hanswers, served, heard] using hrest
      | cons answer answers => simpa [step, hanswers, served, heard] using hrest
    | loseRequest => exact hrest
    | loseAnswer =>
      exact hrest.trans ((List.tail_sublist l.answers).append (List.Sublist.refl _))
    | idle => exact hrest

/-- The answers of a server that gets requests one by one. -/
def answersOf (serve : σ → α → σ × β) : σ → List α → List β
  | _, [] => []
  | server, request :: requests =>
    (serve server request).2 :: answersOf serve (serve server request).1 requests

theorem answers_served (l : Link σ α β) (moves : List (Move α)) :
    (served ((machine serve).outputs l moves)).map Prod.snd =
      answersOf serve l.server ((served ((machine serve).outputs l moves)).map Prod.fst) := by
  induction moves generalizing l with
  | nil => rfl
  | cons move moves ih =>
    have hrest := ih (step serve l move).2
    rw [outputs_cons]
    cases move with
    | ask request => exact hrest
    | serve =>
      cases hrequests : l.requests with
      | nil => simpa [step, hrequests, served] using hrest
      | cons request requests => simpa [step, hrequests, served, answersOf] using hrest
    | hear =>
      cases hanswers : l.answers with
      | nil => simpa [step, hanswers, served] using hrest
      | cons answer answers => simpa [step, hanswers, served] using hrest
    | loseRequest => exact hrest
    | loseAnswer => exact hrest
    | idle => exact hrest

end Exchange

end Lib
