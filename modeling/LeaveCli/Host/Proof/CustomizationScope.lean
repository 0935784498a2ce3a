import LeaveCli.Host.Customization
import LeaveCli.Host.Proof.RouterAgrees
import LeaveCli.Host.SmallPlatform

/-!
# What a customization request can reach

The classifier reads the scope of a customization request off the raw query string; the handlers
read the decoded query or the body. `ReadsGlobal` and `MutatesGlobal` are the requests that run a
user-global command, told from what the handlers read. `customization_guarded_iff` says exactly
which requests run one without the capability.
-/

namespace LeaveCli.Host

open Lib Protocol

/-! ## Requests that run a global command -/

/-- The decoded query selects a global list or detail. -/
def ReadsGlobal (pairs : List (Str × Str)) : Prop :=
  ∃ query, CustomizationQuery.ofPairs pairs = some query ∧
    (query.category = "plugins" ∨ query.category = "mcp") ∧
    ∀ name, query.name = some name → validateName name = .ok ()

/-- The mutation is a confirmed plugin command or a confirmed MCP command at user scope. -/
def MutatesGlobal (parseUrl : Str → Option ParsedUrl) (m : CustomizationMutation) : Prop :=
  validateName m.name = .ok () ∧
    (m.kind = "plugin" ∧
      (m.action = "install" ∧ validatePluginSource parseUrl m.name = .ok () ∧
          m.confirmation = ("INSTALL PLUGIN " : Str) ++ m.name ∨
        m.action = "remove" ∧ m.confirmation = ("REMOVE PLUGIN " : Str) ++ m.name ∨
        m.action = "update" ∧ m.confirmation = ("UPDATE PLUGIN " : Str) ++ m.name) ∨
      m.kind = "mcp" ∧ m.scope = "user" ∧
        (m.action ∈ (["enable", "disable", "remove"] : List Str) ∧
            m.confirmation = m.action.map Char.toUpper ++ (" MCP " : Str) ++ m.name ∨
          m.action = "add" ∧ m.confirmation = ("ADD MCP " : Str) ++ m.name ∧
            ∃ transport, transportArguments parseUrl m = .ok transport))

/-- The call ran a global command. -/
def RunsGlobal {ε : Type} (result : Except ε Ran) : Prop :=
  ∃ arguments, result = .ok (.devin arguments) ∧ IsGlobal arguments

theorem runsGlobal_error {ε : Type} (e : ε) : ¬ RunsGlobal (.error e : Except ε Ran) := by
  intro hcase
  obtain ⟨arguments, h, -⟩ := hcase
  cases h

theorem runsGlobal_devin {ε : Type} {arguments : List Str} :
    RunsGlobal (.ok (.devin arguments) : Except ε Ran) ↔ IsGlobal arguments := by
  refine ⟨?_, fun h => ⟨arguments, rfl, h⟩⟩
  intro hcase
  obtain ⟨arguments', h, hg⟩ := hcase
  cases h
  exact hg

theorem runsGlobal_mapError {ε ε' : Type} (f : ε → ε') (result : Except ε Ran) :
    RunsGlobal (result.mapError f) ↔ RunsGlobal result := by
  cases result with
  | error e => exact iff_of_false (runsGlobal_error _) (runsGlobal_error _)
  | ok ran =>
    refine ⟨?_, ?_⟩
    · intro hcase
      obtain ⟨arguments, h, hg⟩ := hcase
      cases h
      exact ⟨arguments, rfl, hg⟩
    · intro hcase
      obtain ⟨arguments, h, hg⟩ := hcase
      cases h
      exact ⟨arguments, rfl, hg⟩

theorem runsGlobal_bind {ε α : Type} {x : Except ε α} {f : α → Except ε Ran} :
    RunsGlobal (x >>= f) ↔ ∃ a, x = .ok a ∧ RunsGlobal (f a) := by
  cases x with
  | error e => exact iff_of_false (runsGlobal_error e) (by simp)
  | ok a => exact ⟨fun h => ⟨a, rfl, h⟩, by rintro ⟨_, ⟨⟩, h⟩; exact h⟩

/-- A check in front of a call. -/
theorem runsGlobal_check {ε : Type} {check : Except ε Unit} {call : Except ε Ran} :
    RunsGlobal (check >>= fun _ => call) ↔ check = .ok () ∧ RunsGlobal call := by
  rw [runsGlobal_bind]
  exact ⟨fun ⟨_, hc, h⟩ => ⟨hc, h⟩, fun ⟨hc, h⟩ => ⟨(), hc, h⟩⟩

/-! ## Listing and showing -/

theorem list_runsGlobal {category : Str} :
    RunsGlobal (list category true) ↔ category = "plugins" ∨ category = "mcp" := by
  unfold list
  simp only [Bool.not_true, Bool.false_eq_true, and_false, if_false]
  by_cases hr : category = "rules"
  · subst hr
    rw [if_pos rfl, runsGlobal_devin]
    decide
  rw [if_neg hr]
  by_cases hs : category = "skills"
  · subst hs
    rw [if_pos rfl, runsGlobal_devin]
    decide
  rw [if_neg hs]
  by_cases hp : category = "plugins"
  · subst hp
    rw [if_pos rfl, runsGlobal_devin]
    decide
  rw [if_neg hp]
  by_cases hm : category = "mcp"
  · subst hm
    rw [if_pos rfl, runsGlobal_devin]
    decide
  rw [if_neg hm]
  exact iff_of_false (runsGlobal_error _) (not_or.2 ⟨hp, hm⟩)

/-- The `match` of `show`. -/
theorem show_command_runsGlobal {category name : Str} :
    RunsGlobal (if category = "rules" then .ok (.devin ["rules", "show", name])
      else if category = "skills" then .ok (.devin ["skills", "show", name])
      else if category = "plugins" then .ok (.devin ["plugins", "info", name])
      else if category = "mcp" then .ok (.devin ["mcp", "get", name])
      else .error "unknown customization category" : Except Str Ran) ↔
      category = "plugins" ∨ category = "mcp" := by
  by_cases hr : category = "rules"
  · subst hr
    rw [if_pos rfl, runsGlobal_devin]
    exact iff_of_false (by simp [IsGlobal]) (by decide)
  rw [if_neg hr]
  by_cases hs : category = "skills"
  · subst hs
    rw [if_pos rfl, runsGlobal_devin]
    exact iff_of_false (by simp [IsGlobal]) (by decide)
  rw [if_neg hs]
  by_cases hp : category = "plugins"
  · subst hp
    rw [if_pos rfl, runsGlobal_devin]
    exact iff_of_true (by simp [IsGlobal]) (.inl rfl)
  rw [if_neg hp]
  by_cases hm : category = "mcp"
  · subst hm
    rw [if_pos rfl, runsGlobal_devin]
    exact iff_of_true (by simp [IsGlobal]) (.inr rfl)
  rw [if_neg hm]
  exact iff_of_false (runsGlobal_error _) (not_or.2 ⟨hp, hm⟩)

theorem show_runsGlobal {category name : Str} :
    RunsGlobal (show_ category name true) ↔
      (category = "plugins" ∨ category = "mcp") ∧ validateName name = .ok () := by
  rw [show_, runsGlobal_check]
  simp only [Bool.not_true, Bool.false_eq_true, and_false, if_false, show_command_runsGlobal]
  exact and_comm

/-! ## Mutating -/

theorem requireConfirmation_eq_ok {actual expected : Str} :
    requireConfirmation actual expected = .ok () ↔ actual = expected := by
  unfold requireConfirmation
  by_cases h : actual = expected
  · simp [h]
  · simp [h]

/-- With the global switch on, only the scope `user` itself is checked as `user`. -/
theorem checkedScope_user {scope checked : Str} (h : checkedScope scope true = .ok checked) :
    checked = "user" ↔ scope = "user" := by
  unfold checkedScope at h
  simp only [Bool.not_true, Bool.false_eq_true, and_false, if_false] at h
  by_cases hs : scope = []
  · subst hs
    rw [if_pos rfl, if_neg (by decide)] at h
    cases h
    decide
  rw [if_neg hs] at h
  by_cases hmem : scope ∈ (["local", "project", "user"] : List Str)
  · rw [if_neg (not_not.2 hmem)] at h
    cases h
    rfl
  · rw [if_pos hmem] at h
    cases h

theorem checkedScope_of_user : checkedScope "user" true = .ok ("user" : Str) := by rfl

theorem mcp_isGlobal {action scope : Str} {rest : List Str}
    (ha : action ∈ (["enable", "disable", "remove", "add"] : List Str)) :
    IsGlobal (("mcp" : Str) :: action :: ("--scope" : Str) :: scope :: rest) ↔ scope = "user" := by
  have hlist : action ≠ "list" := by
    intro heq
    subst heq
    exact absurd ha (by decide)
  have hget : action ≠ "get" := by
    intro heq
    subst heq
    exact absurd ha (by decide)
  have hmcp : ("mcp" : Str) ≠ "plugins" := by decide
  simp only [IsGlobal, List.head?_cons, List.take_succ_cons, List.take_zero, List.drop_succ_cons,
    List.drop_zero, Option.some.injEq, List.cons.injEq, hmcp, hlist, hget, true_and, and_true,
    false_or]

theorem plugin_isGlobal (rest : List Str) : IsGlobal (("plugins" : Str) :: rest) := .inl rfl

theorem addMcp_runsGlobal {parseUrl : Str → Option ParsedUrl} {m : CustomizationMutation} :
    RunsGlobal (addMcp parseUrl m true) ↔ m.scope = "user" ∧
      m.confirmation = ("ADD MCP " : Str) ++ m.name ∧
      ∃ transport, transportArguments parseUrl m = .ok transport := by
  rw [addMcp, runsGlobal_bind]
  simp only [runsGlobal_check, requireConfirmation_eq_ok]
  refine ⟨?_, ?_⟩
  · intro hcase
    obtain ⟨scope, hscope, hconfirm, h⟩ := hcase
    obtain ⟨transport, htransport, h⟩ := runsGlobal_bind.1 h
    have huser := (mcp_isGlobal (by decide)).1 (runsGlobal_devin.1 h)
    exact ⟨(checkedScope_user hscope).1 huser, hconfirm, transport, htransport⟩
  · intro hcase
    obtain ⟨hscope, hconfirm, transport, htransport⟩ := hcase
    refine ⟨"user", hscope ▸ checkedScope_of_user, hconfirm, runsGlobal_bind.2
      ⟨transport, htransport, runsGlobal_devin.2 ((mcp_isGlobal (by decide)).2 rfl)⟩⟩

theorem mcp_scope_runsGlobal {m : CustomizationMutation}
    (ha : m.action ∈ (["enable", "disable", "remove"] : List Str)) {phrase : Str} :
    RunsGlobal (do
      let scope ← checkedScope m.scope true
      requireConfirmation m.confirmation phrase
      .ok (.devin ["mcp", m.action, "--scope", scope, m.name])) ↔
      m.scope = "user" ∧ m.confirmation = phrase := by
  have hadd : m.action ∈ (["enable", "disable", "remove", "add"] : List Str) :=
    List.mem_append_left [("add" : Str)] ha
  rw [runsGlobal_bind]
  simp only [runsGlobal_check, requireConfirmation_eq_ok, runsGlobal_devin, mcp_isGlobal hadd]
  refine ⟨?_, ?_⟩
  · intro hcase
    obtain ⟨scope, hscope, hconfirm, huser⟩ := hcase
    exact ⟨(checkedScope_user hscope).1 huser, hconfirm⟩
  · intro hcase
    obtain ⟨hscope, hconfirm⟩ := hcase
    exact ⟨"user", hscope ▸ checkedScope_of_user, hconfirm, rfl⟩

/-- A plugin command runs a global command when it is confirmed. -/
theorem plugin_runsGlobal {m : CustomizationMutation} {phrase : Str} {rest : List Str} :
    RunsGlobal (do
      requireConfirmation m.confirmation phrase
      .ok (.devin (("plugins" : Str) :: rest))) ↔ m.confirmation = phrase := by
  rw [runsGlobal_check, requireConfirmation_eq_ok, runsGlobal_devin]
  exact and_iff_left (plugin_isGlobal rest)

/-- Two texts cannot both be a field's value. -/
theorem absurd_text {p : Prop} {a b c : Str} (ha : a = b) (hc : a = c) (hne : b ≠ c) : p :=
  absurd (ha.symm.trans hc) hne

theorem mutate_runsGlobal {parseUrl : Str → Option ParsedUrl} {m : CustomizationMutation} :
    RunsGlobal (mutate parseUrl m true) ↔ MutatesGlobal parseUrl m := by
  unfold mutate MutatesGlobal
  rw [runsGlobal_check]
  refine and_congr_right fun _ => ?_
  simp only [Bool.not_true, Bool.false_eq_true, and_false, if_false]
  by_cases hinstall : m.kind = "plugin" ∧ m.action = "install"
  · obtain ⟨hk, ha⟩ := hinstall
    rw [if_pos ⟨hk, ha⟩, runsGlobal_check, plugin_runsGlobal]
    refine ⟨fun h => .inl ⟨hk, .inl ⟨ha, h⟩⟩, ?_⟩
    intro hcase
    rcases hcase with ⟨-, ⟨-, h⟩ | ⟨h, -⟩ | ⟨h, -⟩⟩ | ⟨h, -⟩
    · exact h
    · exact absurd_text ha h (by decide)
    · exact absurd_text ha h (by decide)
    · exact absurd_text hk h (by decide)
  rw [if_neg hinstall]
  by_cases hremove : m.kind = "plugin" ∧ m.action = "remove"
  · obtain ⟨hk, ha⟩ := hremove
    rw [if_pos ⟨hk, ha⟩, plugin_runsGlobal]
    refine ⟨fun h => .inl ⟨hk, .inr (.inl ⟨ha, h⟩)⟩, ?_⟩
    intro hcase
    rcases hcase with ⟨-, ⟨h, -⟩ | ⟨-, h⟩ | ⟨h, -⟩⟩ | ⟨h, -⟩
    · exact absurd_text ha h (by decide)
    · exact h
    · exact absurd_text ha h (by decide)
    · exact absurd_text hk h (by decide)
  rw [if_neg hremove]
  by_cases hupdate : m.kind = "plugin" ∧ m.action = "update"
  · obtain ⟨hk, ha⟩ := hupdate
    rw [if_pos ⟨hk, ha⟩, plugin_runsGlobal]
    refine ⟨fun h => .inl ⟨hk, .inr (.inr ⟨ha, h⟩)⟩, ?_⟩
    intro hcase
    rcases hcase with ⟨-, ⟨h, -⟩ | ⟨h, -⟩ | ⟨-, h⟩⟩ | ⟨h, -⟩
    · exact absurd_text ha h (by decide)
    · exact absurd_text ha h (by decide)
    · exact h
    · exact absurd_text hk h (by decide)
  rw [if_neg hupdate]
  have hnoPlugin : ¬ (m.kind = "plugin" ∧
      (m.action = "install" ∧ validatePluginSource parseUrl m.name = .ok () ∧
          m.confirmation = ("INSTALL PLUGIN " : Str) ++ m.name ∨
        m.action = "remove" ∧ m.confirmation = ("REMOVE PLUGIN " : Str) ++ m.name ∨
        m.action = "update" ∧ m.confirmation = ("UPDATE PLUGIN " : Str) ++ m.name)) := by
    intro hcase
    obtain ⟨hk, ⟨ha, -⟩ | ⟨ha, -⟩ | ⟨ha, -⟩⟩ := hcase
    · exact hinstall ⟨hk, ha⟩
    · exact hremove ⟨hk, ha⟩
    · exact hupdate ⟨hk, ha⟩
  rw [or_iff_right hnoPlugin]
  by_cases hscoped : m.kind = "mcp" ∧ m.action ∈ (["enable", "disable", "remove"] : List Str)
  · obtain ⟨hk, ha⟩ := hscoped
    have hadd : m.action ≠ "add" := by
      intro h
      rw [h] at ha
      exact absurd ha (by decide)
    rw [if_pos ⟨hk, ha⟩, mcp_scope_runsGlobal ha]
    refine ⟨fun h => ⟨hk, h.1, .inl ⟨ha, h.2⟩⟩, ?_⟩
    intro hcase
    obtain ⟨-, hscope, ⟨-, h⟩ | ⟨h, -⟩⟩ := hcase
    · exact ⟨hscope, h⟩
    · exact absurd h hadd
  rw [if_neg hscoped]
  by_cases hadd : m.kind = "mcp" ∧ m.action = "add"
  · obtain ⟨hk, ha⟩ := hadd
    rw [if_pos ⟨hk, ha⟩, addMcp_runsGlobal]
    refine ⟨fun h => ⟨hk, h.1, .inr ⟨ha, h.2⟩⟩, ?_⟩
    intro hcase
    obtain ⟨-, hscope, ⟨h, -⟩ | ⟨-, h⟩⟩ := hcase
    · exact absurd ⟨hk, h⟩ hscoped
    · exact ⟨hscope, h⟩
  rw [if_neg hadd]
  refine iff_of_false (runsGlobal_error _) ?_
  intro hcase
  obtain ⟨hk, -, ⟨h, -⟩ | ⟨h, -⟩⟩ := hcase
  · exact hscoped ⟨hk, h⟩
  · exact hadd ⟨hk, h⟩

/-! ## The handlers -/

/-- The customization call a request ends in, when its handler is one of the two. -/
def customizationCall (forms : Forms) (expose : Exposure) (request : HttpRequest) :
    Option (Except ApiError Ran) :=
  match dispatchRoute request.method request.uri.path with
  | some .customizationRead => some (customizationRead forms expose request)
  | some .customizationMutate => some (customizationMutate forms expose request)
  | _ => none

theorem customizationRead_runsGlobal {forms : Forms} {request : HttpRequest} :
    RunsGlobal (customizationRead forms .all request) ↔
      ReadsGlobal (queryPairs forms.decode (request.uri.query.getD [])) := by
  unfold customizationRead ReadsGlobal
  cases hq : CustomizationQuery.ofPairs (queryPairs forms.decode (request.uri.query.getD [])) with
  | none => exact iff_of_false (runsGlobal_error _) (by simp)
  | some query =>
    simp only [Exposure.all, Bool.not_true, Bool.false_eq_true, if_false, runsGlobal_mapError,
      Option.some.injEq, exists_eq_left']
    cases hn : query.name with
    | none => simp only [list_runsGlobal, reduceCtorEq, false_imp_iff, implies_true, and_true]
    | some name => simp only [show_runsGlobal, Option.some.injEq, forall_eq']

theorem customizationMutate_runsGlobal {forms : Forms} {request : HttpRequest} :
    RunsGlobal (customizationMutate forms .all request) ↔
      ∃ m, forms.json request = .ok m ∧ MutatesGlobal forms.parseUrl m := by
  unfold customizationMutate
  cases hj : forms.json request with
  | error e => exact iff_of_false (runsGlobal_error _) (by simp)
  | ok m =>
    simp only [Exposure.all, Bool.not_true, Bool.false_eq_true, if_false, runsGlobal_mapError,
      mutate_runsGlobal, Except.ok.injEq, exists_eq_left']

theorem table_customization : ∀ route ∈ buildRouter, ∀ entry ∈ route.2,
    (entry.2 = .customizationRead → route.1 = "/api/v1/local/customization" ∧ Reading entry.1) ∧
    (entry.2 = .customizationMutate →
      route.1 = "/api/v1/local/customization" ∧ entry.1 = "POST") := by decide

theorem dispatchRoute_customizationRead {method path : Str} :
    dispatchRoute method path = some .customizationRead ↔
      path = "/api/v1/local/customization" ∧ Reading method := by
  refine ⟨fun h => ?_, ?_⟩
  · obtain ⟨route, hroute, hmatch, hentry⟩ := dispatchRoute_spec h
    obtain ⟨htemplate, hr⟩ := (table_customization route hroute _ hentry).1 rfl
    rw [htemplate] at hmatch
    exact ⟨matchesTemplate_literal hmatch (by decide), hr⟩
  · intro hcase
    obtain ⟨rfl, rfl | rfl⟩ := hcase
    · decide
    · decide

theorem dispatchRoute_customizationMutate {method path : Str} :
    dispatchRoute method path = some .customizationMutate ↔
      path = "/api/v1/local/customization" ∧ method = "POST" := by
  refine ⟨fun h => ?_, ?_⟩
  · obtain ⟨route, hroute, hmatch, hentry⟩ := dispatchRoute_spec h
    obtain ⟨htemplate, hr⟩ := (table_customization route hroute _ hentry).2 rfl
    rw [htemplate] at hmatch
    exact ⟨matchesTemplate_literal hmatch (by decide), hr⟩
  · intro hcase
    obtain ⟨rfl, rfl⟩ := hcase
    decide

/-- A request that selects a global command, read the way the handler it reaches reads it. -/
def SelectsGlobal (forms : Forms) (request : HttpRequest) : Prop :=
  request.uri.path = "/api/v1/local/customization" ∧
    (Reading request.method ∧ ReadsGlobal (queryPairs forms.decode (request.uri.query.getD [])) ∨
      request.method = "POST" ∧ ∃ m, forms.json request = .ok m ∧ MutatesGlobal forms.parseUrl m)

/-- The customization call of a request runs a global command when the request selects one. -/
theorem customizationCall_runsGlobal {forms : Forms} {request : HttpRequest} :
    (∃ arguments, customizationCall forms .all request = some (.ok (.devin arguments)) ∧
      IsGlobal arguments) ↔ SelectsGlobal forms request := by
  unfold SelectsGlobal
  rw [← customizationRead_runsGlobal, ← customizationMutate_runsGlobal, and_or_left, ← and_assoc,
    ← and_assoc, ← dispatchRoute_customizationRead, ← dispatchRoute_customizationMutate]
  unfold customizationCall
  refine ⟨?_, ?_⟩
  · intro hcase
    obtain ⟨arguments, h, hg⟩ := hcase
    split at h
    · rename_i hd
      exact .inl ⟨hd, arguments, Option.some.inj h, hg⟩
    · rename_i hd
      exact .inr ⟨hd, arguments, Option.some.inj h, hg⟩
    · cases h
  · intro hcase
    rcases hcase with ⟨hd, arguments, h, hg⟩ | ⟨hd, arguments, h, hg⟩
    · exact ⟨arguments, by rw [hd]; exact congrArg some h, hg⟩
    · exact ⟨arguments, by rw [hd]; exact congrArg some h, hg⟩

/-! ## What the classifier lets through -/

/-- On the customization surface, a sender without the capability is let through for a raw category
of project scope, as an owner or a maintainer. -/
theorem authorize_customization {grant : DeviceGrant} {method path : Str}
    (hpath : (Uri.ofTarget path).path = "/api/v1/local/customization")
    (hcap : Capability.globalCustomization ∉ grant.capabilities) :
    authorize grant.role grant.capabilities (actionFor method path) = true ↔
      (queryValue path "category" = some ("rules" : Str) ∨
        queryValue path "category" = some ("skills" : Str)) ∧
      (grant.role = .owner ∨ grant.role = .maintainer) := by
  have hroute : ("/api/v1/local/customization" : Str) <+: routeOf path :=
    prefix_routeOf (hpath ▸ List.prefix_rfl)
  have hterminals : Str.Apart "/api/v1/local/terminals" "/api/v1/local/customization" := by decide
  have hpreviews : Str.Apart "/api/v1/local/previews" "/api/v1/local/customization" := by decide
  rw [actionFor_customization (hterminals.not_starts hroute) (hpreviews.not_starts hroute) hroute]
  by_cases hproject : queryValue path "category" = some ("rules" : Str) ∨
      queryValue path "category" = some ("skills" : Str)
  · rw [if_pos hproject, authorize_projectCustomization]
    exact (and_iff_right hproject).symm
  · rw [if_neg hproject]
    exact iff_of_false (fun h => hcap (mem_of_authorize_globalCustomization h))
      (fun h => hproject h.1)

/-- A request passes for project scope and runs a global command, without the capability. -/
structure EscapesScope (forms : Forms) (grant : DeviceGrant) (request : TunnelRequest)
    (httpRequest : HttpRequest) : Prop where
  /-- The first raw `category` names a project category. -/
  category : queryValue request.path "category" = some ("rules" : Str) ∨
    queryValue request.path "category" = some ("skills" : Str)
  role : grant.role = .owner ∨ grant.role = .maintainer
  ungranted : Capability.globalCustomization ∉ grant.capabilities
  selects : SelectsGlobal forms httpRequest

/-- Global customization needs its capability, for every request but those that pass for project
scope: the query the classifier reads is not what the handler reads. -/
theorem customization_guarded_iff {http : Http} {forms : Forms} {registry : DeviceRegistry}
    {d : Str} {grant : DeviceGrant} {request : TunnelRequest} {httpRequest : HttpRequest}
    (hg : registry.get d = some grant) (hb : buildRequest http request = .ok httpRequest) :
    (permitted registry d request.method request.path = true → ∀ arguments,
      customizationCall forms .all httpRequest = some (.ok (.devin arguments)) →
      IsGlobal arguments → Capability.globalCustomization ∈ grant.capabilities) ↔
    ¬ EscapesScope forms grant request httpRequest := by
  have huri : httpRequest.uri = Uri.ofTarget request.path := by
    unfold buildRequest at hb
    split at hb
    · cases hb
      rfl
    · cases hb
  have hperm : permitted registry d request.method request.path =
      authorize grant.role grant.capabilities (actionFor request.method request.path) := by
    rw [permitted, hg]
  rw [hperm]
  refine ⟨?_, fun h ha arguments hcall hglobal => ?_⟩
  · intro h hcase
    obtain ⟨hcategory, hrole, hcap, hselects⟩ := hcase
    obtain ⟨arguments, hcall, hglobal⟩ := customizationCall_runsGlobal.2 hselects
    have hpath : (Uri.ofTarget request.path).path = "/api/v1/local/customization" :=
      huri ▸ hselects.1
    exact hcap
      (h ((authorize_customization hpath hcap).2 ⟨hcategory, hrole⟩) arguments hcall hglobal)
  · by_contra hcap
    have hselects := customizationCall_runsGlobal.1 ⟨arguments, hcall, hglobal⟩
    have hpath : (Uri.ofTarget request.path).path = "/api/v1/local/customization" :=
      huri ▸ hselects.1
    obtain ⟨hcategory, hrole⟩ := (authorize_customization hpath hcap).1 ha
    exact h ⟨hcategory, hrole, hcap, hselects⟩

/-! ## A plugin installed by a maintainer -/

section
open SmallPlatform

/-- The body of a confirmed plugin installation. -/
def installBody : Bytes :=
  ascii (("\x7b\"kind\":\"plugin\",\"action\":\"install\",\"name\":\"owner/repo\"," : Str) ++
    ("\"confirmation\":\"INSTALL PLUGIN owner/repo\"\x7d" : Str))

/-- Decoders that know this body, and queries without escapes. -/
def installForms : Forms where
  decode s := s
  json request :=
    if request.body = installBody then
      .ok ⟨"plugin", "install", "owner/repo", [], [], [], [], [], "INSTALL PLUGIN owner/repo"⟩
    else .error (.badRequest "Failed to parse the request body as JSON")
  parseUrl _ := none

/-- The installation, sent as a change to the rules. -/
def installRequest : TunnelRequest where
  version := tunnelVersion
  exchangeId := "1"
  method := "POST"
  path := "/api/v1/local/customization?category=rules"
  headers := (∅ : Std.TreeMap Str Str).insert "content-type" "application/json"
  body := installBody

def installHttp : HttpRequest where
  method := "POST"
  uri := ⟨"/api/v1/local/customization", some "category=rules"⟩
  headers := [("content-type", ascii "application/json")]
  body := installBody

/-- A registry with one maintainer, who holds no capability. -/
def maintainerOnly : DeviceRegistry := (⟨∅⟩ : DeviceRegistry).set "laptop" ⟨.maintainer, ∅⟩

theorem customization_guarded_iff_install :
    (permitted maintainerOnly "laptop" "POST" installRequest.path = true → ∀ arguments,
      customizationCall installForms .all installHttp = some (.ok (.devin arguments)) →
      IsGlobal arguments →
      Capability.globalCustomization ∈ (⟨.maintainer, ∅⟩ : DeviceGrant).capabilities) ↔
    ¬ EscapesScope installForms ⟨.maintainer, ∅⟩ installRequest installHttp :=
  have hbuild : buildRequest http installRequest = .ok installHttp := by decide +kernel
  customization_guarded_iff (show maintainerOnly.get "laptop" = some ⟨.maintainer, ∅⟩ by
    decide) hbuild

/-- A maintainer without the capability installs a plugin as a change to the rules. -/
theorem customization_unguarded : ¬ ∀ (registry : DeviceRegistry) (d : Str) (grant : DeviceGrant)
    (request : TunnelRequest) (httpRequest : HttpRequest), registry.get d = some grant →
    buildRequest http request = .ok httpRequest →
    permitted registry d request.method request.path = true → ∀ arguments,
    customizationCall installForms .all httpRequest = some (.ok (.devin arguments)) →
    IsGlobal arguments → Capability.globalCustomization ∈ grant.capabilities := by
  intro h
  have hcap := h maintainerOnly "laptop" ⟨.maintainer, ∅⟩ installRequest installHttp
    (by decide +kernel) (by decide +kernel) (by decide +kernel)
    ["plugins", "install", "--yes", "--local", "owner/repo"] (by decide +kernel) (by decide)
  exact absurd hcap (by decide)

end

end LeaveCli.Host
