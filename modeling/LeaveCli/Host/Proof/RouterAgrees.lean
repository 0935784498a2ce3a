import LeaveCli.Host.LocalServer
import LeaveCli.Host.RelayTunnel

/-!
# The router and the classifier

The host authorizes a tunnelled request by `actionFor` of its target, and the router dispatches the
path of the target's `Uri`. `dispatchRoute_spec` says what the router matched, by the part of the
template before its first parameter; `routeOf_eq_path_append` relates the two readings of one
target. With them `classifier_agrees_iff` says for which requests the classifier names the action
that the handler performs.
-/

namespace LeaveCli.Host

open Lib Protocol

/-! ## What the router matches -/

/-- The part of a template before its first parameter. -/
def staticPrefix (template : Str) : Str := template.takeWhile (· ≠ '{')

theorem takeWhile_of_head? {t : Str} (h : t.head? = some '{') (rest : Str) :
    (t ++ rest).takeWhile (· ≠ '{') = [] := by
  cases t with
  | nil => cases h
  | cons c t =>
    obtain rfl : c = '{' := by simpa using h
    simp

theorem segmentsMatch_starts {ts ss : List Str} (h : segmentsMatch ts ss = true) :
    (['/'].intercalate ts).takeWhile (· ≠ '{') <+: ['/'].intercalate ss := by
  induction ts generalizing ss with
  | nil => simp
  | cons t ts ih =>
    cases ss with
    | nil => simp [segmentsMatch] at h
    | cons s ss =>
      simp only [segmentsMatch, Bool.and_eq_true, segmentMatches] at h
      obtain ⟨hts, hrest⟩ := h
      by_cases hparam : t.head? = some '{'
      · have hnil : (['/'].intercalate (t :: ts)).takeWhile (· ≠ '{') = [] := by
          cases ts with
          | nil => simpa using takeWhile_of_head? hparam []
          | cons t' ts =>
            rw [List.intercalate_cons_cons, List.append_assoc]
            exact takeWhile_of_head? hparam _
        rw [hnil]
        exact List.nil_prefix
      rw [if_neg hparam] at hts
      obtain rfl : t = s := by simpa using hts
      match ts, ss, ih hrest, hrest with
      | [], [], _, _ => simpa using List.takeWhile_prefix _
      | [], _ :: _, _, hrest => simp [segmentsMatch] at hrest
      | _ :: _, [], _, hrest => simp [segmentsMatch] at hrest
      | t' :: ts, s' :: ss, ih, _ =>
        rw [List.intercalate_cons_cons, List.intercalate_cons_cons, List.append_assoc,
          List.append_assoc, List.takeWhile_append]
        split
        · exact (List.prefix_append_right_inj t).2 (by simpa using ih)
        · exact (List.takeWhile_prefix _).trans (List.prefix_append t _)

/-- A path starts with the static part of the template it matches. -/
theorem matchesTemplate_starts {template path : Str} (h : matchesTemplate template path = true) :
    staticPrefix template <+: path := by
  have hp := segmentsMatch_starts h
  rwa [List.intercalate_splitOn, List.intercalate_splitOn] at hp

/-- Without parameters, a template matches itself alone. -/
theorem segmentsMatch_literal {ts ss : List Str} (h : segmentsMatch ts ss = true)
    (hlit : ∀ t ∈ ts, t.head? ≠ some '{') : ss = ts := by
  induction ts generalizing ss with
  | nil =>
    cases ss with
    | nil => rfl
    | cons s ss => simp [segmentsMatch] at h
  | cons t ts ih =>
    cases ss with
    | nil => simp [segmentsMatch] at h
    | cons s ss =>
      simp only [segmentsMatch, Bool.and_eq_true, segmentMatches] at h
      rw [if_neg (hlit t List.mem_cons_self)] at h
      rw [ih h.2 fun t ht => hlit t (List.mem_cons_of_mem _ ht), of_decide_eq_true h.1]

theorem matchesTemplate_literal {template path : Str} (h : matchesTemplate template path = true)
    (hlit : ∀ t ∈ template.splitOn '/', t.head? ≠ some '{') : path = template := by
  have hpath : ['/'].intercalate (path.splitOn '/') = path := List.intercalate_splitOn '/'
  rw [← hpath, segmentsMatch_literal h hlit, List.intercalate_splitOn]

/-- A dispatched request matches a route of the table that has its method. -/
theorem dispatchRoute_spec {method path : Str} {handler : Handler}
    (h : dispatchRoute method path = some handler) :
    ∃ route ∈ buildRouter, matchesTemplate route.1 path = true ∧ (method, handler) ∈ route.2 := by
  obtain ⟨route, hfind, hlookup⟩ := Option.bind_eq_some_iff.1 h
  have hmatch : matchesTemplate route.1 path = true := by
    have := List.find?_some hfind
    simpa using this
  refine ⟨route, List.mem_of_find?_eq_some hfind, hmatch, ?_⟩
  obtain ⟨pre, post, hl, -⟩ := List.lookup_eq_some_iff.1 hlookup
  rw [hl]
  simp

/-! ## Two readings of one target -/

theorem takeWhile_query_append (target : Str) :
    ∃ tail, target.takeWhile (· ≠ '?') =
      (target.takeWhile (· ≠ '#')).takeWhile (· ≠ '?') ++ tail ∧
      (tail = [] ∨ tail.head? = some '#') := by
  induction target with
  | nil => exact ⟨[], rfl, .inl rfl⟩
  | cons c target ih =>
    by_cases hq : c = '?'
    · subst hq
      exact ⟨[], by simp, .inl rfl⟩
    by_cases hf : c = '#'
    · subst hf
      exact ⟨'#' :: target.takeWhile (· ≠ '?'), by simp, .inr rfl⟩
    · obtain ⟨tail, ht, hhead⟩ := ih
      refine ⟨tail, ?_, hhead⟩
      rw [List.takeWhile_cons_of_pos (by simpa using hq), ht,
        List.takeWhile_cons_of_pos (by simpa using hf),
        List.takeWhile_cons_of_pos (by simpa using hq), List.cons_append]

theorem ofTarget_path (target : Str) :
    (Uri.ofTarget target).path = (withoutFragment target).takeWhile (· ≠ '?') := by
  rw [Str.takeWhile_eq_splitOnce]
  unfold Uri.ofTarget
  cases Str.splitOnce '?' (withoutFragment target) <;> rfl

/-- The classifier reads the router's path, and a fragment behind it when one comes before any
query. -/
theorem routeOf_eq_path_append (target : Str) :
    ∃ tail, routeOf target = (Uri.ofTarget target).path ++ tail ∧
      (tail = [] ∨ tail.head? = some '#') := by
  rw [ofTarget_path]
  exact takeWhile_query_append target

/-- What starts the router's path starts the route the classifier reads. -/
theorem prefix_routeOf {target p : Str} (h : p <+: (Uri.ofTarget target).path) :
    p <+: routeOf target := by
  obtain ⟨tail, ht, -⟩ := routeOf_eq_path_append target
  rw [ht]
  exact h.trans (List.prefix_append _ _)

/-! ## What the classifier answers -/

/-- The route is on none of the surfaces that need a grant even for reading. -/
structure Ungated (route : Str) : Prop where
  terminals : ¬ ("/api/v1/local/terminals" : Str) <+: route
  previews : ¬ ("/api/v1/local/previews" : Str) <+: route
  customization : ¬ ("/api/v1/local/customization" : Str) <+: route

/-- A text that starts no gated surface, and that none starts. -/
def ApartFromGated (p : Str) : Prop :=
  Str.Apart "/api/v1/local/terminals" p ∧ Str.Apart "/api/v1/local/previews" p ∧
    Str.Apart "/api/v1/local/customization" p

instance (p : Str) : Decidable (ApartFromGated p) := inferInstanceAs (Decidable (_ ∧ _ ∧ _))

theorem ApartFromGated.ungated {p route : Str} (h : ApartFromGated p) (hp : p <+: route) :
    Ungated route := ⟨h.1.not_starts hp, h.2.1.not_starts hp, h.2.2.not_starts hp⟩

def Reading (method : Str) : Prop := method = "GET" ∨ method = "HEAD"

instance (method : Str) : Decidable (Reading method) := inferInstanceAs (Decidable (_ ∨ _))

theorem actionFor_previews {method path : Str}
    (h : ("/api/v1/local/previews" : Str) <+: routeOf path) :
    actionFor method path = .persistentBrowserProfile := by
  have ht : ¬ ("/api/v1/local/terminals" : Str) <+: routeOf path :=
    Str.Apart.not_starts (b := "/api/v1/local/previews") (by decide) h
  unfold actionFor
  rw [if_neg ht, if_pos h]

theorem actionFor_reading {method path : Str} (hg : Ungated (routeOf path))
    (hr : Reading method) : actionFor method path = .view := by
  unfold actionFor
  rw [if_neg hg.terminals, if_neg hg.previews, if_neg hg.customization]
  exact if_pos hr

/-- The classification of a write outside the gated surfaces. -/
theorem actionFor_writing {method path : Str} (hg : Ungated (routeOf path))
    (hr : ¬ Reading method) : actionFor method path =
      if routeOf path = "/api/v1/local/file" then .editFiles
      else if ("/api/v1/local/git/" : Str) <+: routeOf path then
        if routeOf path = "/api/v1/local/git/status" ∨ routeOf path = "/api/v1/local/git/diff" ∨
            routeOf path = "/api/v1/local/git/worktrees" then .view
        else .gitWrite
      else if routeOf path = "/api/v1/local/sessions" then .prompt
      else if ("/api/v1/local/sessions/" : Str) <+: routeOf path then
        if ("/permissions" : Str) <:+ routeOf path ∨ ("/permissions/" : Str) <:+: routeOf path then
          .lowRiskApproval
        else .prompt
      else .editFiles := by
  unfold actionFor
  rw [if_neg hg.terminals, if_neg hg.previews, if_neg hg.customization]
  exact if_neg hr

/-! ## The table -/

/-- What the table says about a route of a handler, by the action that the handler performs. -/
def Placed (template method : Str) (handler : Handler) : Prop :=
  match handler.performs with
  | some .view => Reading method ∧ ApartFromGated (staticPrefix template)
  | some .rawPty => ("/api/v1/local/terminals" : Str) <+: staticPrefix template
  | some .persistentBrowserProfile => ("/api/v1/local/previews" : Str) <+: staticPrefix template
  | some .gitWrite => ¬ Reading method ∧ ApartFromGated (staticPrefix template) ∧
      ("/api/v1/local/git/" : Str) <+: staticPrefix template ∧
      Str.Apart "/api/v1/local/file" (staticPrefix template) ∧
      Str.Apart "/api/v1/local/git/status" (staticPrefix template) ∧
      Str.Apart "/api/v1/local/git/diff" (staticPrefix template) ∧
      Str.Apart "/api/v1/local/git/worktrees" (staticPrefix template)
  | some .editFiles => ¬ Reading method ∧ staticPrefix template = "/api/v1/local/file"
  | some .prompt => ¬ Reading method ∧
      (handler = .createSession ∧ template = "/api/v1/local/sessions" ∨
        handler ∈ [.resumeSession, .prompt, .cancel] ∧
          staticPrefix template = "/api/v1/local/sessions/")
  | some .lowRiskApproval => handler = .decidePermission ∧ ¬ Reading method ∧
      staticPrefix template = "/api/v1/local/permissions/"
  | _ => True

instance (template method : Str) (handler : Handler) :
    Decidable (Placed template method handler) := by
  unfold Placed
  split <;> infer_instance

theorem table_placed : ∀ route ∈ buildRouter, ∀ entry ∈ route.2,
    Placed route.1 entry.1 entry.2 := by decide +kernel

/-! ## Where they agree -/

/-- A write on a route that starts apart from every route the classifier knows edits files. -/
theorem actionFor_unknown {method path p : Str} (hr : ¬ Reading method) (hp : p <+: routeOf path)
    (hg : ApartFromGated p) (hgit : Str.Apart "/api/v1/local/git/" p)
    (hs : Str.Apart "/api/v1/local/sessions" p) : actionFor method path = .editFiles := by
  have hsessions : ¬ ("/api/v1/local/sessions/" : Str) <+: routeOf path := fun h =>
    hs.not_starts hp (List.IsPrefix.trans (by decide) h)
  rw [actionFor_writing (hg.ungated hp) hr, if_neg (hgit.not_starts hp), if_neg (hs.ne hp),
    if_neg hsessions, ite_self]

/-- A write under `/api/v1/local/sessions/` is an approval or a prompt. -/
theorem actionFor_session {method path : Str} (hr : ¬ Reading method)
    (hp : ("/api/v1/local/sessions/" : Str) <+: routeOf path) : actionFor method path =
      if ("/permissions" : Str) <:+ routeOf path ∨ ("/permissions/" : Str) <:+: routeOf path then
        .lowRiskApproval
      else .prompt := by
  have hg : ApartFromGated "/api/v1/local/sessions/" := by decide
  have hfile : Str.Apart "/api/v1/local/file" "/api/v1/local/sessions/" := by decide
  have hgit : Str.Apart "/api/v1/local/git/" "/api/v1/local/sessions/" := by decide
  have hne : routeOf path ≠ ("/api/v1/local/sessions" : Str) := by
    intro h
    rw [h] at hp
    exact absurd hp (by decide)
  rw [actionFor_writing (hg.ungated hp) hr, if_neg (hfile.ne hp), if_neg (hgit.not_starts hp),
    if_neg hne, if_pos hp]

theorem ite_prompt_iff {p : Prop} [Decidable p] :
    (if p then Action.lowRiskApproval else .prompt) = .prompt ↔ ¬ p := by
  by_cases h : p
  · simp [h]
  · simp [h]

/-- Where the classifier departs from the router: it knows no route for deciding a permission, it
does not see that the router drops a fragment, and it takes any session request whose route looks
like an approval for one. -/
def Misclassified (handler : Handler) (path : Str) : Prop :=
  match handler with
  | .decidePermission => True
  | .createSession => '#' ∈ routeOf path
  | .resumeSession | .prompt | .cancel =>
    ("/permissions" : Str) <:+ routeOf path ∨ ("/permissions/" : Str) <:+: routeOf path
  | _ => False

instance (handler : Handler) (path : Str) : Decidable (Misclassified handler path) := by
  unfold Misclassified
  split <;> infer_instance

theorem misclassified_session {handler : Handler} {path : Str}
    (h : handler ∈ [Handler.resumeSession, .prompt, .cancel]) : Misclassified handler path ↔
      ("/permissions" : Str) <:+ routeOf path ∨ ("/permissions/" : Str) <:+: routeOf path := by
  simp only [List.mem_cons, List.not_mem_nil, or_false] at h
  rcases h with rfl | rfl | rfl <;> rfl

theorem misclassified_of_performs {handler : Handler} {action : Action} {path : Str}
    (h : handler.performs = some action) (hp : action ≠ .prompt) (hl : action ≠ .lowRiskApproval) :
    ¬ Misclassified handler path := by
  cases handler <;> simp_all [Handler.performs, Misclassified]

/-- Creating a session: the classifier reads the router's path when no fragment is in the way. -/
theorem actionFor_createSession {method path : Str} (hr : ¬ Reading method)
    (hp : (Uri.ofTarget path).path = ("/api/v1/local/sessions" : Str)) :
    actionFor method path = .prompt ↔ '#' ∉ routeOf path := by
  obtain ⟨tail, ht, htail⟩ := routeOf_eq_path_append path
  rw [hp] at ht
  rcases htail with rfl | hhash
  · rw [List.append_nil] at ht
    have hpre : ("/api/v1/local/sessions" : Str) <+: routeOf path := ht ▸ List.prefix_rfl
    have hg : ApartFromGated "/api/v1/local/sessions" := by decide
    have hfile : Str.Apart "/api/v1/local/file" "/api/v1/local/sessions" := by decide
    have hgit : Str.Apart "/api/v1/local/git/" "/api/v1/local/sessions" := by decide
    rw [actionFor_writing (hg.ungated hpre) hr, if_neg (hfile.ne hpre),
      if_neg (hgit.not_starts hpre), if_pos ht, ht]
    decide
  · obtain ⟨rest, rfl⟩ : ∃ rest, tail = '#' :: rest := by
      cases tail with
      | nil => cases hhash
      | cons c rest => exact ⟨rest, by simpa using hhash⟩
    have hpre : ("/api/v1/local/sessions#" : Str) <+: routeOf path :=
      ⟨rest, by rw [ht]; simp⟩
    have hg : ApartFromGated "/api/v1/local/sessions#" := by decide
    have hfile : Str.Apart "/api/v1/local/file" "/api/v1/local/sessions#" := by decide
    have hgit : Str.Apart "/api/v1/local/git/" "/api/v1/local/sessions#" := by decide
    have hsession : Str.Apart "/api/v1/local/sessions/" "/api/v1/local/sessions#" := by decide
    have hne : routeOf path ≠ ("/api/v1/local/sessions" : Str) := by
      rw [ht]
      simp
    rw [actionFor_writing (hg.ungated hpre) hr, if_neg (hfile.ne hpre),
      if_neg (hgit.not_starts hpre), if_neg hne, if_neg (hsession.not_starts hpre)]
    simp [ht]

/-- For a request the router dispatches, the classifier names what the handler performs exactly
when the request is not one of the misclassified ones. -/
theorem actionFor_eq_performs_iff {method path : Str} {handler : Handler} {action : Action}
    (hd : dispatchRoute method (Uri.ofTarget path).path = some handler)
    (ha : handler.performs = some action) :
    actionFor method path = action ↔ ¬ Misclassified handler path := by
  obtain ⟨route, hroute, hmatch, hentry⟩ := dispatchRoute_spec hd
  have hpre : staticPrefix route.1 <+: routeOf path :=
    prefix_routeOf (matchesTemplate_starts hmatch)
  have hagree : action ≠ .prompt → action ≠ .lowRiskApproval → actionFor method path = action →
      (actionFor method path = action ↔ ¬ Misclassified handler path) := fun hp hl heq =>
    iff_of_true heq (misclassified_of_performs ha hp hl)
  have hplaced := table_placed route hroute _ hentry
  simp only [Placed, ha] at hplaced
  cases action with
  | view =>
    obtain ⟨hr, hapart⟩ := hplaced
    exact hagree (by decide) (by decide) (actionFor_reading (hapart.ungated hpre) hr)
  | rawPty =>
    exact hagree (by decide) (by decide) (actionFor_terminals (hplaced.trans hpre))
  | persistentBrowserProfile =>
    exact hagree (by decide) (by decide) (actionFor_previews (hplaced.trans hpre))
  | gitWrite =>
    obtain ⟨hr, hapart, hgit, hfile, hstatus, hdiff, htrees⟩ := hplaced
    have hreads : ¬ (routeOf path = "/api/v1/local/git/status" ∨
        routeOf path = "/api/v1/local/git/diff" ∨
        routeOf path = "/api/v1/local/git/worktrees") := by
      intro hcase
      rcases hcase with h | h | h
      · exact hstatus.ne hpre h
      · exact hdiff.ne hpre h
      · exact htrees.ne hpre h
    refine hagree (by decide) (by decide) ?_
    rw [actionFor_writing (hapart.ungated hpre) hr, if_neg (hfile.ne hpre),
      if_pos (hgit.trans hpre), if_neg hreads]
  | editFiles =>
    obtain ⟨hr, hstatic⟩ := hplaced
    rw [hstatic] at hpre
    exact hagree (by decide) (by decide)
      (actionFor_unknown hr hpre (by decide) (by decide) (by decide))
  | lowRiskApproval =>
    obtain ⟨rfl, hr, hstatic⟩ := hplaced
    rw [hstatic] at hpre
    rw [actionFor_unknown hr hpre (by decide) (by decide) (by decide)]
    simp [Misclassified]
  | prompt =>
    obtain ⟨hr, ⟨rfl, htemplate⟩ | ⟨hother, hstatic⟩⟩ := hplaced
    · rw [htemplate] at hmatch
      exact actionFor_createSession hr (matchesTemplate_literal hmatch (by decide))
    · rw [hstatic] at hpre
      rw [actionFor_session hr hpre, misclassified_session hother]
      exact ite_prompt_iff
  | manageMembers => cases handler <;> cases ha
  | projectCustomization => cases handler <;> cases ha
  | dangerousApproval => cases handler <;> cases ha
  | globalCustomization => cases handler <;> cases ha

/-- Deciding a permission is classified as editing files, whatever the request identifier. -/
theorem actionFor_permissions (id : Str) :
    actionFor "POST" (("/api/v1/local/permissions/" : Str) ++ id) = .editFiles := by
  have hpre : ("/api/v1/local/permissions/" : Str) <+:
      routeOf (("/api/v1/local/permissions/" : Str) ++ id) := by
    refine ⟨routeOf id, ?_⟩
    rw [routeOf, routeOf, List.takeWhile_append_of_pos (List.all_eq_true.1 (by decide))]
  exact actionFor_unknown (by decide) hpre (by decide) (by decide) (by decide)

/-- The classifier and the router agree on every dispatched request but the misclassified ones;
among those is every answer of a newly paired device to a pending permission. -/
theorem classifier_agrees_iff {method path : Str} {handler : Handler} {action : Action}
    (hdispatch : dispatchRoute method (Uri.ofTarget path).path = some handler)
    (hperforms : handler.performs = some action) :
    (actionFor method path = action ↔ ¬ Misclassified handler path) ∧
      ∀ (registry : DeviceRegistry) (d id : Str), registry.get d = some .newlyPaired →
        permitted registry d "POST" (("/api/v1/local/permissions/" : Str) ++ id) = false := by
  refine ⟨actionFor_eq_performs_iff hdispatch hperforms, ?_⟩
  intro registry d id hg
  have hrefused : authorize DeviceGrant.newlyPaired.role DeviceGrant.newlyPaired.capabilities
      .editFiles = false := rfl
  rw [permitted, hg]
  simp only [actionFor_permissions, hrefused]

/-- A session whose identifier is `permissions` can be prompted by whoever may approve, and no
newly paired device may answer a permission. -/
theorem classifier_agrees_iff_permissions_session :
    (actionFor "POST" "/api/v1/local/sessions/permissions/prompts" = .prompt ↔
      ¬ Misclassified .prompt "/api/v1/local/sessions/permissions/prompts") ∧
    ∀ (registry : DeviceRegistry) (d id : Str), registry.get d = some .newlyPaired →
      permitted registry d "POST" (("/api/v1/local/permissions/" : Str) ++ id) = false :=
  classifier_agrees_iff (by decide +kernel) rfl

/-- Deciding permission 7 is not classified as an approval. -/
theorem classifier_misses_permissions : ¬ ∀ method path handler action,
    dispatchRoute method (Uri.ofTarget path).path = some handler →
    handler.performs = some action → actionFor method path = action := by
  intro h
  have hedit := h "POST" "/api/v1/local/permissions/7" .decidePermission .lowRiskApproval
    (by decide +kernel) rfl
  exact absurd hedit (by decide +kernel)

end LeaveCli.Host
