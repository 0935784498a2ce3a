import LeaveCli.Lib.UnixPath

/-!
# Where paths lead

`Leads` is the relation that `follow` computes (`follow_eq_ok`), one name or link after the other.
By induction on it: a path leads where its front leads and one step on (`Leads.concat_cases`), a `.`
on the way makes no difference when a directory that can be searched is reached in the end
(`Leads.dots`), and neither does what is put at a place where no name can be looked up
(`Leads.put`).
-/

namespace Lib

/-- The names that are no dots. -/
def dotless (names : OsPath) : OsPath := names.filter (· ≠ dot)

theorem dotless_dot (names : OsPath) : dotless (dot :: names) = dotless names :=
  List.filter_cons_of_neg (by simp)

theorem dotless_cons {name : OsStr} (h : name ≠ dot) (names : OsPath) :
    dotless (name :: names) = name :: dotless names :=
  List.filter_cons_of_pos (by simpa using h)

theorem dotless_append (names more : OsPath) :
    dotless (names ++ more) = dotless names ++ dotless more :=
  List.filter_append ..

theorem eq_append_of_dotless {names rest : OsPath} {name : OsStr}
    (h : dotless names = name :: dotless rest) : ∃ dots more, names = dots ++ name :: more ∧
      (∀ name ∈ dots, name = dot) ∧ dotless more = dotless rest := by
  obtain ⟨dots, more, hnames, hdots, -, hmore⟩ := List.filter_eq_cons_iff.1 h
  exact ⟨dots, more, hnames, fun name hname => by simpa using hdots name hname, hmore⟩

namespace FileTree

variable {tree : FileTree}

/-! ## One step -/

theorem step_eq_leads {path p : OsPath} {name : OsStr} : tree.step path name = .leads p ↔
    tree.barred path = none ∧ (name = dot ∧ p = path ∨
      name ≠ dot ∧ name = dotDot ∧ p = path.dropLast ∨
      name ≠ dot ∧ name ≠ dotDot ∧ 0 ∉ name ∧ p = path ++ [name] ∧
        ∃ node, tree.node p = some node ∧ node.target = none) := by
  rw [step]
  cases hbarred : tree.barred path with
  | some error => simp
  | none =>
    rw [Option.elim_none]
    by_cases hdot : name = dot
    · rw [if_pos hdot]
      simp [hdot, eq_comm]
    rw [if_neg hdot]
    by_cases hdotDot : name = dotDot
    · rw [if_pos hdotDot, Step.leads.injEq, eq_comm]
      subst hdotDot
      simp [hdot]
    rw [if_neg hdotDot]
    by_cases hnul : 0 ∈ name
    · rw [if_pos hnul]
      simp [hdot, hdotDot, hnul]
    rw [if_neg hnul]
    cases hnode : tree.node (path ++ [name]) with
    | none =>
      rw [Option.elim_none]
      refine iff_of_false (by simp) ?_
      intro hcase
      obtain ⟨-, ⟨h, -⟩ | ⟨-, h, -⟩ | ⟨-, -, -, rfl, node, h, -⟩⟩ := hcase
      · exact hdot h
      · exact hdotDot h
      · rw [hnode] at h
        cases h
    | some node =>
      rw [Option.elim_some]
      cases htarget : node.target with
      | some target =>
        rw [Option.elim_some]
        refine iff_of_false (by simp) ?_
        intro hcase
        obtain ⟨-, ⟨h, -⟩ | ⟨-, h, -⟩ | ⟨-, -, -, rfl, node', h, hnone⟩⟩ := hcase
        · exact hdot h
        · exact hdotDot h
        · rw [hnode] at h
          cases h
          rw [htarget] at hnone
          cases hnone
      | none =>
        rw [Option.elim_none, Step.leads.injEq]
        constructor
        · intro heq
          subst heq
          exact ⟨rfl, .inr (.inr ⟨hdot, hdotDot, hnul, rfl, node, hnode, htarget⟩)⟩
        · intro hcase
          obtain ⟨-, ⟨h, -⟩ | ⟨-, h, -⟩ | ⟨-, -, -, rfl, -⟩⟩ := hcase
          · exact absurd h hdot
          · exact absurd h hdotDot
          · rfl

theorem step_eq_link {path : OsPath} {name target : OsStr} : tree.step path name = .link target ↔
    tree.barred path = none ∧ name ≠ dot ∧ name ≠ dotDot ∧ 0 ∉ name ∧
      ∃ node, tree.node (path ++ [name]) = some node ∧ node.target = some target := by
  rw [step]
  cases hbarred : tree.barred path with
  | some error => simp
  | none =>
    rw [Option.elim_none]
    by_cases hdot : name = dot
    · rw [if_pos hdot]
      simp [hdot]
    rw [if_neg hdot]
    by_cases hdotDot : name = dotDot
    · rw [if_pos hdotDot]
      simp [hdotDot]
    rw [if_neg hdotDot]
    by_cases hnul : 0 ∈ name
    · rw [if_pos hnul]
      simp [hnul]
    rw [if_neg hnul]
    cases hnode : tree.node (path ++ [name]) with
    | none => simp
    | some node =>
      rw [Option.elim_some]
      cases htarget : node.target with
      | some target' => simp [hdot, hdotDot, hnul, htarget]
      | none => simp [htarget]

theorem step_dot {path : OsPath} (h : tree.barred path = none) :
    tree.step path dot = .leads path :=
  step_eq_leads.2 ⟨h, .inl ⟨rfl, rfl⟩⟩

/-- Where a step is taken, names can be looked up. -/
theorem barred_of_step {path p : OsPath} {name : OsStr}
    (h : tree.step path name = .leads p ∨ ∃ target, tree.step path name = .link target) :
    tree.barred path = none := by
  rcases h with hleads | ⟨target, hlink⟩
  · exact (step_eq_leads.1 hleads).1
  · exact (step_eq_link.1 hlink).1

/-- A step by a name takes a node of this name, and arrives at it if it is no link. -/
theorem node_of_step {path p : OsPath} {name : OsStr} (hdot : name ≠ dot) (hdotDot : name ≠ dotDot)
    (h : tree.step path name = .leads p ∨ ∃ target, tree.step path name = .link target) :
    0 ∉ name ∧ ∃ node, tree.node (path ++ [name]) = some node ∧
      (node.isSymlink = false → p = path ++ [name]) := by
  rcases h with hleads | ⟨target, hlink⟩
  · obtain ⟨-, ⟨hname, -⟩ | ⟨-, hname, -⟩ | ⟨-, -, hnul, rfl, node, hnode, -⟩⟩ :=
      step_eq_leads.1 hleads
    · exact absurd hname hdot
    · exact absurd hname hdotDot
    · exact ⟨hnul, node, hnode, fun _ => rfl⟩
  · obtain ⟨-, -, -, hnul, node, hnode, htarget⟩ := step_eq_link.1 hlink
    refine ⟨hnul, node, hnode, fun hplain => ?_⟩
    rw [Node.isSymlink, htarget] at hplain
    cases hplain

/-! ## Following a path -/

variable (tree) in
/-- Names lead from a path to another, with at most so many links on the way. -/
inductive Leads : Nat → OsPath → OsPath → OsPath → Prop
  | arrived (links : Nat) (path : OsPath) : Leads links path [] path
  | enter {links : Nat} {path next rest p : OsPath} {name : OsStr}
    (hstep : tree.step path name = .leads next) (h : Leads links next rest p) :
    Leads links path (name :: rest) p
  | link {links : Nat} {path rest p : OsPath} {name target : OsStr}
    (hstep : tree.step path name = .link target)
    (h : Leads links (if isAbsolute target then [] else path) (osComponents target ++ rest) p) :
    Leads (links + 1) path (name :: rest) p

theorem follow_nil (links : Nat) (path : OsPath) : tree.follow links path [] = .ok path := by
  cases links <;> rfl

theorem follow_cons_leads {links : Nat} {path next rest : OsPath} {name : OsStr}
    (h : tree.step path name = .leads next) :
    tree.follow links path (name :: rest) = tree.follow links next rest := by
  cases links <;> rw [follow, follow, walk, h]

theorem follow_cons_refused {links : Nat} {path rest : OsPath} {name : OsStr} {error : IoError}
    (h : tree.step path name = .refused error) :
    tree.follow links path (name :: rest) = .error error := by
  cases links <;> rw [follow, walk, h] <;> rfl

theorem follow_cons_link {links : Nat} {path rest : OsPath} {name target : OsStr}
    (h : tree.step path name = .link target) :
    tree.follow (links + 1) path (name :: rest) =
      tree.follow links (if isAbsolute target then [] else path) (osComponents target ++ rest) := by
  rw [follow, walk, h]
  rfl

theorem follow_eq_ok {links : Nat} {path names p : OsPath} :
    tree.follow links path names = .ok p ↔ tree.Leads links path names p := by
  constructor
  · intro h
    induction links generalizing path names with
    | zero =>
      induction names generalizing path with
      | nil =>
        cases h
        exact .arrived 0 _
      | cons name rest ih =>
        cases hstep : tree.step path name with
        | leads next =>
          rw [follow_cons_leads hstep] at h
          exact .enter hstep (ih h)
        | refused error =>
          rw [follow_cons_refused hstep] at h
          cases h
        | link target =>
          rw [follow, walk, hstep] at h
          cases h
    | succ links ihlinks =>
      induction names generalizing path with
      | nil =>
        cases h
        exact .arrived _ _
      | cons name rest ih =>
        cases hstep : tree.step path name with
        | leads next =>
          rw [follow_cons_leads hstep] at h
          exact .enter hstep (ih h)
        | refused error =>
          rw [follow_cons_refused hstep] at h
          cases h
        | link target =>
          rw [follow_cons_link hstep] at h
          exact .link hstep (ihlinks h)
  · intro h
    induction h with
    | arrived links path => exact follow_nil links path
    | enter hstep h ih => rw [follow_cons_leads hstep, ih]
    | link hstep h ih => rw [follow_cons_link hstep, ih]

namespace Leads

variable {links : Nat} {path names p : OsPath}

/-- Whoever arrives at a directory that can be searched has come through such directories. -/
theorem barred (h : tree.Leads links path names p) (hp : tree.barred p = none) :
    tree.barred path = none := by
  cases h with
  | arrived links path => exact hp
  | enter hstep h => exact (step_eq_leads.1 hstep).1
  | link hstep h => exact (step_eq_link.1 hstep).1

/-- The last step is taken where the front leads. -/
theorem concat_cases {name : OsStr} (h : tree.Leads links path (names ++ [name]) p) :
    ∃ d, tree.Leads links path names d ∧
      (tree.step d name = .leads p ∨ ∃ target, tree.step d name = .link target) := by
  generalize hall : names ++ [name] = all at h
  induction h generalizing names with
  | arrived links path => simp at hall
  | @enter links path next rest p first hstep h ih =>
    cases names with
    | nil =>
      obtain ⟨rfl, rfl⟩ := List.cons.inj hall
      cases h
      exact ⟨path, .arrived links path, .inl hstep⟩
    | cons x names =>
      obtain ⟨rfl, rfl⟩ := List.cons.inj hall
      obtain ⟨d, hd, hlast⟩ := ih rfl
      exact ⟨d, .enter hstep hd, hlast⟩
  | @link links path rest p first target hstep h ih =>
    cases names with
    | nil =>
      obtain ⟨rfl, rfl⟩ := List.cons.inj hall
      exact ⟨path, .arrived _ path, .inr ⟨target, hstep⟩⟩
    | cons x names =>
      obtain ⟨rfl, rfl⟩ := List.cons.inj hall
      obtain ⟨d, hd, hlast⟩ := ih (List.append_assoc _ _ _)
      exact ⟨d, .link hstep hd, hlast⟩

/-! ## Dots -/

theorem skip_dots {dots : OsPath} (hdots : ∀ name ∈ dots, name = dot)
    (hpath : tree.barred path = none) (h : tree.Leads links path names p) :
    tree.Leads links path (dots ++ names) p := by
  induction dots with
  | nil => exact h
  | cons name dots ih =>
    obtain ⟨rfl, hrest⟩ := List.forall_mem_cons.1 hdots
    exact .enter (step_dot hpath) (ih hrest)

/-- Paths that are the same but for dots lead to the same directory. -/
theorem dots {other : OsPath} (h : tree.Leads links path names p) (hp : tree.barred p = none)
    (hsame : dotless other = dotless names) : tree.Leads links path other p := by
  induction h generalizing other with
  | arrived links path =>
    have hdots : ∀ name ∈ other, name = dot := by
      intro name hname
      by_contra hne
      have hmem : name ∈ dotless other := List.mem_filter.2 ⟨hname, by simpa using hne⟩
      rw [hsame] at hmem
      cases hmem
    rw [← List.append_nil other]
    exact skip_dots hdots hp (.arrived links path)
  | @enter links path next rest p name hstep h ih =>
    obtain ⟨hpath, hcases⟩ := step_eq_leads.1 hstep
    by_cases hdot : name = dot
    · obtain rfl : next = path := by
        rcases hcases with ⟨-, rfl⟩ | ⟨hne, -⟩ | ⟨hne, -⟩
        · rfl
        · exact absurd hdot hne
        · exact absurd hdot hne
      rw [hdot, dotless_dot] at hsame
      exact ih hp hsame
    · rw [dotless_cons hdot] at hsame
      obtain ⟨dots, more, rfl, hdots, hmore⟩ := eq_append_of_dotless hsame
      exact skip_dots hdots hpath (.enter hstep (ih hp hmore))
  | @link links path rest p name target hstep h ih =>
    obtain ⟨hpath, hdot, -⟩ := step_eq_link.1 hstep
    rw [dotless_cons hdot] at hsame
    obtain ⟨dots, more, rfl, hdots, hmore⟩ := eq_append_of_dotless hsame
    refine skip_dots hdots hpath (.link hstep (ih hp ?_))
    rw [dotless_append, dotless_append, hmore]

/-! ## Changes that are not on the way -/

/-- What is put at a place that nothing can be looked up in is on no way to a directory. -/
theorem put {tree' : FileTree} {place : OsPath} (h : tree.Leads links path names p)
    (hp : tree.barred p = none) (hothers : ∀ q, q ≠ place → tree'.node q = tree.node q)
    (hplace : tree.barred place ≠ none)
    (hlink : ∀ node, tree.node place = some node → node.isSymlink = false) :
    tree'.Leads links path names p := by
  have hbarred : ∀ q, tree.barred q = none → tree'.barred q = none := by
    intro q hq
    have hne : q ≠ place := by
      intro heq
      subst heq
      exact hplace hq
    rwa [FileTree.barred, hothers q hne]
  induction h with
  | arrived links path => exact .arrived links path
  | @enter links path next rest p name hstep h ih =>
    refine .enter ?_ (ih hp)
    obtain ⟨hpath, hcases⟩ := step_eq_leads.1 hstep
    refine step_eq_leads.2 ⟨hbarred path hpath, ?_⟩
    rcases hcases with hdot | hdotDot | ⟨hdot, hdotDot, hnul, hnext, hnode⟩
    · exact .inl hdot
    · exact .inr (.inl hdotDot)
    · have hne : next ≠ place := by
        intro heq
        subst heq
        exact hplace (h.barred hp)
      refine .inr (.inr ⟨hdot, hdotDot, hnul, hnext, ?_⟩)
      rwa [hothers next hne]
  | @link links path rest p name target hstep h ih =>
    refine .link ?_ (ih hp)
    obtain ⟨hpath, hdot, hdotDot, hnul, node, hnode, htarget⟩ := step_eq_link.1 hstep
    refine step_eq_link.2 ⟨hbarred path hpath, hdot, hdotDot, hnul, node, ?_, htarget⟩
    rw [hothers _ ?_, hnode]
    intro heq
    subst heq
    have hnone := hlink node hnode
    rw [Node.isSymlink, htarget] at hnone
    cases hnone

end Leads

/-! ## Canonical paths -/

theorem resolve_eq_ok {path p : OsPath} : tree.resolve path = .ok p ↔
    (∀ name ∈ path, 0 ∉ name) ∧ tree.Leads linkLimit [] path p := by
  rw [resolve]
  split
  · rename_i hnul
    obtain ⟨name, hname, hmem⟩ := List.any_eq_true.1 hnul
    exact iff_of_false (by simp) fun h => h.1 name hname (of_decide_eq_true hmem)
  · rename_i hnul
    rw [follow_eq_ok]
    refine (and_iff_right fun name hname hmem => hnul ?_).symm
    exact List.any_eq_true.2 ⟨name, hname, decide_eq_true hmem⟩

theorem resolve_concat_cases {path p : OsPath} {name : OsStr}
    (h : tree.resolve (path ++ [name]) = .ok p) :
    ∃ d, tree.resolve path = .ok d ∧
      (tree.step d name = .leads p ∨ ∃ target, tree.step d name = .link target) := by
  obtain ⟨hnul, hleads⟩ := resolve_eq_ok.1 h
  obtain ⟨d, hd, hlast⟩ := hleads.concat_cases
  exact ⟨d, resolve_eq_ok.2 ⟨fun name hname => hnul name (List.mem_append_left _ hname), hd⟩, hlast⟩

/-- A dot at the end asks for a directory. -/
theorem resolve_concat_dot {path p : OsPath} (h : tree.resolve (path ++ [dot]) = .ok p) :
    tree.resolve path = .ok p ∧ tree.barred p = none := by
  obtain ⟨d, hd, hstep | ⟨target, hstep⟩⟩ := resolve_concat_cases h
  · obtain ⟨hbarred, ⟨-, rfl⟩ | ⟨hne, -⟩ | ⟨hne, -⟩⟩ := step_eq_leads.1 hstep
    · exact ⟨hd, hbarred⟩
    · exact absurd rfl hne
    · exact absurd rfl hne
  · exact absurd rfl (step_eq_link.1 hstep).2.1

theorem resolve_dots {path other p : OsPath} (h : tree.resolve path = .ok p)
    (hp : tree.barred p = none) (hsame : dotless other = dotless path) :
    tree.resolve other = .ok p := by
  obtain ⟨hnul, hleads⟩ := resolve_eq_ok.1 h
  refine resolve_eq_ok.2 ⟨fun name hname => ?_, hleads.dots hp hsame⟩
  by_cases hdot : name = dot
  · rw [hdot]
    decide
  · have hmem : name ∈ dotless other := List.mem_filter.2 ⟨hname, by simpa using hdot⟩
    rw [hsame] at hmem
    exact hnul name (List.mem_of_mem_filter hmem)

theorem resolve_put {tree' : FileTree} {path p place : OsPath} (h : tree.resolve path = .ok p)
    (hp : tree.barred p = none) (hothers : ∀ q, q ≠ place → tree'.node q = tree.node q)
    (hplace : tree.barred place ≠ none)
    (hlink : ∀ node, tree.node place = some node → node.isSymlink = false) :
    tree'.resolve path = .ok p := by
  obtain ⟨hnul, hleads⟩ := resolve_eq_ok.1 h
  exact resolve_eq_ok.2 ⟨hnul, hleads.put hp hothers hplace hlink⟩

/-- What a path without links leads to is looked up in it. -/
theorem barred_of_resolve_append {path names p : OsPath} (hpath : tree.Resolved path)
    (h : tree.resolve (path ++ names) = .ok p) (hp : tree.barred p = none) :
    tree.barred path = none := by
  have hfollow : tree.follow linkLimit [] (path ++ names) = tree.follow linkLimit path names := by
    rw [linkLimit, follow, follow, walk_append (walk_of_resolved hpath)]
  have hleads := follow_eq_ok.2 (resolve_eq_ok.1 h).2
  rw [hfollow] at hleads
  exact (follow_eq_ok.1 hleads).barred hp

end FileTree

/-! ## The parts of a path -/

theorem slash_notMem_splitOn {path part : OsStr} (h : part ∈ path.splitOn slash) :
    slash ∉ part := by
  induction path generalizing part with
  | nil =>
    rw [List.splitOn_nil, List.mem_singleton] at h
    rw [h]
    exact List.not_mem_nil
  | cons b path ih =>
    rw [List.splitOn_cons_eq_if_modifyHead] at h
    split at h
    · rcases List.mem_cons.1 h with rfl | h
      · exact List.not_mem_nil
      · exact ih h
    · rename_i hb
      cases hsplit : path.splitOn slash with
      | nil => exact absurd hsplit (List.splitOn_ne_nil _ _)
      | cons first rest =>
        rw [hsplit, List.modifyHead_cons] at h
        rw [hsplit] at ih
        rcases List.mem_cons.1 h with rfl | h
        · rw [List.mem_cons, not_or]
          exact ⟨fun heq => hb (by rw [heq]; exact beq_self_eq_true _), ih List.mem_cons_self⟩
        · exact ih (List.mem_cons_of_mem _ h)

theorem dotless_filter (parts : OsPath) :
    dotless (parts.filter (· ≠ [])) = parts.filter fun part => part ≠ [] ∧ part ≠ dot := by
  rw [dotless, List.filter_filter]
  refine List.filter_congr fun part _ => ?_
  rw [← Bool.decide_and]
  exact decide_eq_decide.2 and_comm

theorem dotless_osComponents (path : OsStr) : dotless (osComponents path) =
    (path.splitOn slash).filter fun part => part ≠ [] ∧ part ≠ dot := by
  rw [osComponents]
  split
  · rw [dotless_append, dotless_filter, dotless_dot]
    exact List.append_nil _
  · exact dotless_filter _

/-- A path that goes neither back nor to the root is its names. -/
theorem components_eq {path : OsStr} (habsolute : isAbsolute path = false)
    (hparent : .parentDir ∉ components path) : components path =
      (if (path.splitOn slash).head? = some dot then [.curDir] else []) ++
        (dotless (osComponents path)).map .normal := by
  rw [components, habsolute, if_neg Bool.false_ne_true] at hparent ⊢
  rw [dotless_osComponents]
  congr 1
  have hnames : ∀ part ∈ path.splitOn slash, part ≠ dotDot := by
    intro part hpart heq
    subst heq
    refine hparent (List.mem_append_right _ (List.mem_filterMap.2 ⟨dotDot, hpart, ?_⟩))
    decide
  generalize path.splitOn slash = parts at hnames
  induction parts with
  | nil => rfl
  | cons part parts ih =>
    obtain ⟨hpart, hparts⟩ := List.forall_mem_cons.1 hnames
    by_cases hskip : part = [] ∨ part = dot
    · simp only [List.filterMap_cons, if_pos hskip]
      rw [ih hparts, List.filter_cons_of_neg]
      rw [decide_eq_true_eq]
      exact fun h => hskip.elim h.1 h.2
    · simp only [List.filterMap_cons, if_neg hskip, if_neg hpart]
      rw [ih hparts, List.filter_cons_of_pos, List.map_cons]
      rw [decide_eq_true_eq]
      exact not_or.1 hskip

theorem osComponents_intercalate {names : OsPath} (h : ∀ name ∈ names, name ≠ [] ∧ slash ∉ name) :
    osComponents ([slash].intercalate names) = names := by
  cases hnames : names with
  | nil => rfl
  | cons first rest =>
    have hne : names ≠ [] := by simp [hnames]
    rw [← hnames]
    have hsplit : ([slash].intercalate names).splitOn slash = names :=
      List.splitOn_intercalate slash (fun name hname => (h name hname).2) hne
    have hall : names.filter (· ≠ []) = names :=
      List.filter_eq_self.2 fun name hname => decide_eq_true (h name hname).1
    have hlast : ([slash].intercalate names).getLast? ≠ some slash := by
      intro hend
      obtain ⟨front, hfront⟩ := List.getLast?_eq_some_iff.1 hend
      rw [hfront, List.splitOn_append_cons_self, List.splitOn_nil] at hsplit
      exact (h [] (hsplit ▸ List.mem_append_right _ (List.mem_singleton_self _))).1 rfl
    rw [osComponents, hsplit, hall, if_neg fun h => hlast h.2]

/-- A path that is not empty and does not start at the root has a name. -/
theorem osComponents_ne_nil {path : OsStr} (hne : path ≠ []) (habsolute : isAbsolute path = false) :
    osComponents path ≠ [] := by
  obtain ⟨b, rest, rfl⟩ := List.exists_cons_of_ne_nil hne
  have hb : b ≠ slash := by simpa [isAbsolute] using habsolute
  obtain ⟨first, more, hmore⟩ := List.exists_cons_of_ne_nil (List.splitOn_ne_nil slash rest)
  have hsplit : (b :: rest).splitOn slash = (b :: first) :: more := by
    rw [List.splitOn_cons_eq_if_modifyHead, if_neg (by simpa using hb), hmore,
      List.modifyHead_cons]
  have hmem : b :: first ∈ ((b :: rest).splitOn slash).filter (· ≠ []) := by
    rw [hsplit, List.mem_filter]
    exact ⟨List.mem_cons_self, by simp⟩
  rw [osComponents]
  split
  · exact List.append_ne_nil_of_left_ne_nil (List.ne_nil_of_mem hmem) _
  · exact List.ne_nil_of_mem hmem

theorem name_of_mem_dotless {path name : OsStr} (h : name ∈ dotless (osComponents path)) :
    name ≠ [] ∧ name ≠ dot ∧ slash ∉ name := by
  rw [dotless_osComponents, List.mem_filter, decide_eq_true_eq] at h
  exact ⟨h.2.1, h.2.2, slash_notMem_splitOn h.1⟩

theorem splitOn_of_notMem {name : OsStr} (h : slash ∉ name) : name.splitOn slash = [name] := by
  have hsplit : ([slash].intercalate [name]).splitOn slash = [name] :=
    List.splitOn_intercalate slash (by simpa using h) (by simp)
  rwa [List.intercalate_singleton] at hsplit

/-- A name is joined to the names of a path. -/
theorem osComponents_joinPath (path : OsStr) {name : OsStr} (hne : name ≠ [])
    (hslash : slash ∉ name) : ∃ others, osComponents (joinPath path name) = others ++ [name] ∧
      dotless others = dotless (osComponents path) := by
  have hrelative : isAbsolute name = false := by
    rw [isAbsolute, decide_eq_false_iff_not]
    exact fun h => hslash (List.mem_of_mem_head? h)
  have hlast : ∀ front : OsStr, (front ++ name).getLast? ≠ some slash := by
    intro front h
    rw [List.getLast?_append_of_ne_nil _ hne] at h
    exact hslash (List.mem_of_getLast? h)
  have hnames : ∀ front : OsStr, osComponents (front ++ slash :: name) =
      (front.splitOn slash).filter (· ≠ []) ++ [name] := by
    intro front
    have hend := hlast (front ++ [slash])
    rw [List.append_assoc, List.singleton_append] at hend
    rw [osComponents, if_neg fun h => hend h.2, List.splitOn_append_cons_self,
      splitOn_of_notMem hslash, List.filter_append, List.filter_cons_of_pos (by simpa using hne),
      List.filter_nil]
  rw [joinPath, hrelative, if_neg Bool.false_ne_true]
  split
  · rename_i hbase
    rcases hbase with rfl | hbase
    · refine ⟨[], ?_, rfl⟩
      rw [List.nil_append, osComponents, if_neg fun h => hlast [] h.2, splitOn_of_notMem hslash,
        List.filter_cons_of_pos (by simpa using hne)]
      rfl
    · obtain ⟨front, rfl⟩ := List.getLast?_eq_some_iff.1 hbase
      rw [List.append_assoc, List.singleton_append]
      refine ⟨_, hnames front, ?_⟩
      rw [dotless_filter, dotless_osComponents, List.splitOn_append_cons_self, List.splitOn_nil,
        List.filter_append, List.filter_cons_of_neg (by simp), List.filter_nil, List.append_nil]
  · exact ⟨_, hnames path, by rw [dotless_filter, dotless_osComponents]⟩

theorem joinOs_ofComponents (base : OsPath) {parts : List Component}
    (h : ∀ part ∈ parts, part.osStr ≠ [] ∧ slash ∉ part.osStr) :
    ∃ front, joinOs base (ofComponents parts) = base ++ front ∧
      dotless front = dotless (parts.map Component.osStr) := by
  have hnames : ∀ name ∈ parts.map Component.osStr, name ≠ [] ∧ slash ∉ name := by
    intro name hname
    obtain ⟨part, hpart, rfl⟩ := List.mem_map.1 hname
    exact h part hpart
  have hcomponents := osComponents_intercalate hnames
  have habsolute : isAbsolute (ofComponents parts) = false := by
    by_contra hfirst
    rw [Bool.not_eq_false, isAbsolute, decide_eq_true_eq] at hfirst
    obtain ⟨rest, hrest⟩ := List.head?_eq_some_iff.1 hfirst
    rw [osComponents, ← ofComponents] at hcomponents
    by_cases hempty : parts = []
    · rw [hempty] at hrest
      cases hrest
    have hsplit : (ofComponents parts).splitOn slash = parts.map Component.osStr :=
      List.splitOn_intercalate slash (fun name hname => (hnames name hname).2) (by simpa)
    rw [hrest, List.splitOn_cons_eq_if_modifyHead, if_pos (beq_self_eq_true slash)] at hsplit
    exact (hnames [] (hsplit ▸ List.mem_cons_self)).1 rfl
  rw [joinOs, habsolute, if_neg Bool.false_ne_true]
  split
  · rename_i hempty
    rw [← ofComponents, hempty] at hcomponents
    refine ⟨[dot], rfl, ?_⟩
    rw [← hcomponents]
    rfl
  · exact ⟨_, rfl, by rw [ofComponents, hcomponents]⟩

/-- The last name of a path and its parent, and the path itself. -/
theorem parent_fileName {path name : OsStr} (habsolute : isAbsolute path = false)
    (hparent : .parentDir ∉ components path) (hname : fileName path = some name) (base : OsPath) :
    ∃ front, joinOs base ((parent path).getD []) = base ++ front ∧
      dotless (osComponents path) = dotless front ++ [name] := by
  have hcomponents := components_eq habsolute hparent
  have hall : ∀ name ∈ dotless (osComponents path), name ≠ [] ∧ name ≠ dot ∧ slash ∉ name :=
    fun name hname => name_of_mem_dotless hname
  generalize dotless (osComponents path) = names at hcomponents hall
  rw [fileName] at hname
  rcases List.eq_nil_or_concat names with rfl | ⟨others, last, rfl⟩
  · rw [hcomponents, List.map_nil, List.append_nil] at hname
    split at hname <;> cases hname
  · rw [List.concat_eq_append] at hcomponents hall ⊢
    rw [List.map_append, List.map_singleton, ← List.append_assoc] at hcomponents
    rw [hcomponents, List.getLast?_concat, Option.bind_some, Option.some.injEq] at hname
    rw [parent, hcomponents, List.getLast?_concat, Option.bind_some, if_neg (by simp),
      List.dropLast_concat, Option.getD_some, ← hname]
    have hparts : ∀ part ∈ (if (path.splitOn slash).head? = some dot then [.curDir] else []) ++
        others.map Component.normal, part.osStr ≠ [] ∧ slash ∉ part.osStr := by
      intro part hpart
      rcases List.mem_append.1 hpart with hpart | hpart
      · split at hpart
        · rw [List.mem_singleton.1 hpart]
          decide
        · cases hpart
      · obtain ⟨name, hmem, rfl⟩ := List.mem_map.1 hpart
        obtain ⟨hne, -, hslash⟩ := hall name (List.mem_append_left _ hmem)
        exact ⟨hne, hslash⟩
    obtain ⟨front, hfront, hdotless⟩ := joinOs_ofComponents base hparts
    refine ⟨front, hfront, ?_⟩
    congr 1
    have hothers : dotless others = others := List.filter_eq_self.2 fun name hmem =>
      decide_eq_true (hall name (List.mem_append_left _ hmem)).2.1
    have hmap : (others.map Component.normal).map Component.osStr = others := by
      rw [List.map_map]
      exact List.map_id others
    rw [hdotless, List.map_append, dotless_append, hmap, hothers]
    split
    · rfl
    · rfl

end Lib
