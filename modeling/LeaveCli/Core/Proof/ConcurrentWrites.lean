import LeaveCli.Core.Proof.Turns
import LeaveCli.Lib.CompareAndSwap

/-!
# Acknowledged writes

The writer lock keeps the calls apart only while their futures live: the future of a call that was
dropped has given the lock back, and its blocking task may still be between its re-check and its
commit. As long as no task re-checks while another call that was dropped is there (`Clear`), every
commit finds its base (`Guarded`): the commits compare and swap, no acknowledged write is lost, and
no base is spent twice (`acknowledged_writes_kept`). That is so when no future is dropped while its
task is in flight (`clear_of_waited`).
-/

namespace LeaveCli.Core

open Lib

/-! ## Calls in the way of each other -/

/-- The path of a call, once it is resolved. -/
def CallStage.path? : CallStage → Option OsPath
  | .waiting => none
  | .locked => none
  | .resolved path => some path
  | .compared write => some write.path
  | .spawned write => some write.path
  | .checked write => some write.path
  | .ended write _ => some write.path
  | .returned => none

/-- The blocking task is spawned, and has not ended. -/
def CallStage.inFlight : CallStage → Bool
  | .waiting => false
  | .locked => false
  | .resolved _ => false
  | .compared _ => false
  | .spawned _ => true
  | .checked _ => true
  | .ended _ _ => false
  | .returned => false

namespace WriteCall

/-- The future holds the writer lock. -/
def holds (c : WriteCall) : Bool :=
  !c.dropped && match c.stage with
    | .waiting => false
    | .locked => true
    | .resolved _ => true
    | .compared _ => true
    | .spawned _ => true
    | .checked _ => true
    | .ended _ _ => true
    | .returned => false

/-- The file that the call has checked, until its task has failed or the call is over. -/
def engaged (c : WriteCall) : Option OsPath :=
  match c.stage with
  | .waiting => none
  | .locked => none
  | .resolved _ => none
  | .compared _ => none
  | .spawned _ => none
  | .checked write => some write.path
  | .ended write result => if result.toBool ∧ !c.dropped then some write.path else none
  | .returned => none

end WriteCall

namespace WriteWorld

/-- A task that re-checks meets no other call that has checked the same file, if one of the two was
dropped. -/
def Clear (s : WriteWorld) : WriteAction → Prop
  | .call _ _ _ => True
  | .poll _ => True
  | .task id _ _ => ∀ c ∈ s.calls[id]?, ∀ write ∈ c.stage.spawned?, ∀ d ∈ s.calls,
      d.engaged = some write.path → c.dropped = false ∧ d.dropped = false
  | .drop _ => True
  | .others _ => True

/-- Other processes leave the file, and the directories on the way to it, as they are. -/
def LeavesAlone (file : OsPath) (s : WriteWorld) : WriteAction → Prop
  | .call _ _ _ => True
  | .poll _ => True
  | .task _ _ _ => True
  | .drop _ => True
  | .others after => ∀ q, q <+: file → after.node q = s.tree.node q

instance (s : WriteWorld) (action : WriteAction) : Decidable (s.Clear action) := by
  cases action <;> unfold Clear <;> infer_instance

instance (file : OsPath) (s : WriteWorld) (action : WriteAction) :
    Decidable (LeavesAlone file s action) := by
  cases action with
  | others after =>
    exact decidable_of_iff (∀ q ∈ file.inits, after.node q = s.tree.node q)
      (by simp only [List.mem_inits]; rfl)
  | _ => exact inferInstanceAs (Decidable True)

/-! ## The invariant -/

/-- What holds of one call. -/
structure Sane (env : FsEnv) (root : WorkspaceRoot) (file : OsPath) (tree : FileTree)
    (c : WriteCall) : Prop where
  based : ∀ write, c.stage.write? = some write → write.expectedHash = c.baseHash
  target : c.stage.path? = some file →
    ∃ directory name, file = directory ++ [name] ∧ Target tree root directory name
  checked : ∀ write, c.stage = .checked write → write.path = file →
    env.contentHash (contentAt tree file) = c.baseHash
  ended : ∀ write, c.stage = .ended write (.ok ()) → c.dropped = false → write.path = file →
    ∃ permissions, tree.node file = some (.file write.normalized.utf8 permissions)

/-- The future of a call that holds the lock is the writer, and one call at a time is engaged with
the file. -/
structure Guarded (env : FsEnv) (root : WorkspaceRoot) (file : OsPath) (s : WriteWorld) :
    Prop where
  sane : ∀ (id : Nat) c, s.calls[id]? = some c → Sane env root file s.tree c
  holds : ∀ (id : Nat) c, s.calls[id]? = some c → c.holds = true → s.writer = some id
  alone : ∀ (id other : Nat) c d, s.calls[id]? = some c → s.calls[other]? = some d →
    c.engaged = some file → d.engaged = some file → id = other

variable {env : FsEnv} {root : WorkspaceRoot} {file : OsPath} {s : WriteWorld}

/-! ## One call -/

namespace Sane

variable {tree after : FileTree} {c : WriteCall} {write : PreparedWrite}

/-- A call that has no path yet, or none any more. -/
theorem of_none (hpath : c.stage.path? = none) : Sane env root file tree c := by
  obtain ⟨relative, baseHash, content, stage, dropped⟩ := c
  cases stage with
  | resolved path => cases hpath
  | compared write => cases hpath
  | spawned write => cases hpath
  | checked write => cases hpath
  | ended write result => cases hpath
  | _ => constructor <;> simp [CallStage.write?, CallStage.path?]

theorem path_of_write {stage : CallStage} (h : stage.write? = some write) :
    stage.path? = some write.path := by
  cases stage <;> cases h <;> rfl

theorem goesOn (h : Sane env root file tree c) {stage : CallStage}
    (hgoes : GoesOn env root tree c stage) : Sane env root file tree { c with stage } := by
  cases hgoes with
  | resolve path hstage hpath =>
    refine ⟨by simp [CallStage.write?], ?_, by simp, by simp⟩
    intro hfile
    rw [← Option.some.inj hfile]
    exact resolveForWrite_target hpath
  | compare path write hstage hwrite =>
    obtain ⟨hpath, hbased⟩ := compareBase_eq_ok hwrite
    refine ⟨?_, ?_, by simp, by simp⟩
    · intro write' hsome
      rw [← Option.some.inj hsome]
      exact hbased
    · intro hfile
      apply h.target
      rw [hstage, ← hfile, ← hpath]
      rfl
  | spawn write hstage =>
    have hwrite : c.stage.write? = some write := by rw [hstage]; rfl
    refine ⟨?_, ?_, by simp, by simp⟩
    · intro write' hsome
      rw [← Option.some.inj hsome]
      exact h.based write hwrite
    · intro hfile
      apply h.target
      rw [path_of_write hwrite, ← hfile]
      rfl

/-- The re-check found what was compared with the base. -/
theorem check (h : Sane env root file tree c) (hstage : c.stage = .spawned write)
    (hcheck : recheckWrite env tree write = .ok ()) :
    Sane env root file tree { c with stage := .checked write } := by
  have hwrite : c.stage.write? = some write := by rw [hstage]; rfl
  have hpath := path_of_write hwrite
  refine ⟨?_, ?_, ?_, by simp⟩
  · intro write' hsome
    rw [← Option.some.inj hsome]
    exact h.based write hwrite
  · intro hfile
    exact h.target (hpath.trans hfile)
  · intro write' hchecked hfile
    obtain rfl : write = write' := by simpa using hchecked
    obtain ⟨latest, hlatest, hhash⟩ := recheckWrite_eq_ok hcheck
    obtain ⟨directory, name, hname, htarget⟩ := h.target (hpath.trans (congrArg some hfile))
    rw [hfile, hname] at hlatest
    rw [hname, contentAt_of_readLatest htarget hlatest, hhash]
    exact h.based write hwrite

theorem fail (h : Sane env root file tree c) (hwrite : c.stage.write? = some write)
    (error : GuardedFsError) :
    Sane env root file tree { c with stage := .ended write (.error error) } := by
  refine ⟨?_, ?_, by simp, by simp⟩
  · intro write' hsome
    rw [← Option.some.inj hsome]
    exact h.based write hwrite
  · intro hfile
    exact h.target ((path_of_write hwrite).trans hfile)

theorem drop (h : Sane env root file tree c) :
    Sane env root file tree { c with dropped := true } :=
  { h with ended := fun _ _ hlive => absurd hlive (by simp) }

/-- Nothing on the way to the file has changed. -/
theorem congr (h : Sane env root file tree c)
    (hsame : ∀ q, q <+: file → after.node q = tree.node q) : Sane env root file after c := by
  have hnode := hsame file (List.prefix_refl _)
  refine ⟨h.based, ?_, ?_, ?_⟩
  · intro hfile
    obtain ⟨directory, name, rfl, htarget⟩ := h.target hfile
    exact ⟨directory, name, rfl, htarget.congr hsame⟩
  · intro write hchecked hfile
    rw [contentAt, hnode]
    exact h.checked write hchecked hfile
  · intro write hended hlive hfile
    rw [hnode]
    exact h.ended write hended hlive hfile

section Put

variable {path : OsPath} {bytes : Bytes} {permissions : FilePermissions}

/-- A file was put somewhere else, or the call is not engaged. -/
theorem put (h : Sane env root file tree c) (hput : Put tree after path bytes permissions)
    (hfree : path = file → c.engaged ≠ some file) : Sane env root file after c := by
  have hnode : c.engaged = some file → after.node file = tree.node file := by
    intro hengaged
    apply hput.others
    intro heq
    exact hfree heq.symm hengaged
  refine ⟨h.based, ?_, ?_, ?_⟩
  · intro hfile
    obtain ⟨directory, name, hname, htarget⟩ := h.target hfile
    exact ⟨directory, name, hname, htarget.put hput⟩
  · intro write hchecked hfile
    have hengaged : c.engaged = some file := by rw [WriteCall.engaged, hchecked, ← hfile]
    rw [contentAt, hnode hengaged]
    exact h.checked write hchecked hfile
  · intro write hended hlive hfile
    have hengaged : c.engaged = some file := by
      rw [WriteCall.engaged, hended, hlive, ← hfile]
      rfl
    rw [hnode hengaged]
    exact h.ended write hended hlive hfile

/-- The call itself has put its file. -/
theorem commit (h : Sane env root file tree c) (hwrite : c.stage.write? = some write)
    (hput : Put tree after write.path write.normalized.utf8 permissions) :
    Sane env root file after { c with stage := .ended write (.ok ()) } := by
  refine ⟨?_, ?_, by simp, ?_⟩
  · intro write' hsome
    rw [← Option.some.inj hsome]
    exact h.based write hwrite
  · intro hfile
    obtain ⟨directory, name, hname, htarget⟩ := h.target ((path_of_write hwrite).trans hfile)
    exact ⟨directory, name, hname, htarget.put hput⟩
  · intro write' hended hlive hfile
    obtain rfl : write = write' := by simpa using hended
    exact ⟨permissions, hfile ▸ hput.now⟩

end Put

end Sane

/-! ## All calls -/

theorem getElem?_set_cases {calls : List WriteCall} {id other : Nat} {c d : WriteCall}
    (h : (calls.set id c)[other]? = some d) :
    other = id ∧ d = c ∨ other ≠ id ∧ calls[other]? = some d := by
  rw [List.getElem?_set] at h
  split at h
  · rename_i hid
    split at h
    · exact .inl ⟨hid.symm, (Option.some.inj h).symm⟩
    · cases h
  · rename_i hid
    exact .inr ⟨Ne.symm hid, h⟩

/-- One call moves on. -/
theorem Guarded.update (h : Guarded env root file s) {id : Nat} {c' : WriteCall} {tree : FileTree}
    {writer : Option Nat}
    (hothers : ∀ (other : Nat) d, other ≠ id → s.calls[other]? = some d → Sane env root file tree d)
    (hsane : Sane env root file tree c')
    (hwriter : ∀ other, other ≠ id → s.writer = some other → writer = some other)
    (hholds : c'.holds = true → writer = some id)
    (halone : c'.engaged = some file → ∀ (other : Nat) d, other ≠ id → s.calls[other]? = some d →
      d.engaged ≠ some file) :
    Guarded env root file ⟨tree, writer, s.calls.set id c'⟩ := by
  refine ⟨?_, ?_, ?_⟩
  · intro other d hd
    rcases getElem?_set_cases hd with ⟨-, rfl⟩ | ⟨hne, hd⟩
    · exact hsane
    · exact hothers other d hne hd
  · intro other d hd hheld
    rcases getElem?_set_cases hd with ⟨rfl, rfl⟩ | ⟨hne, hd⟩
    · exact hholds hheld
    · exact hwriter other hne (h.holds other d hd hheld)
  · intro one other d e hd he hone hother
    rcases getElem?_set_cases hd with ⟨rfl, rfl⟩ | ⟨hne, hd'⟩ <;>
      rcases getElem?_set_cases he with ⟨rfl, rfl⟩ | ⟨hne', he'⟩
    · rfl
    · exact absurd hother (halone hone other e hne' he')
    · exact absurd hone (halone hother one d hne hd')
    · exact h.alone one other d e hd' he' hone hother

theorem engaged_path {c : WriteCall} (h : c.engaged = some file) : c.stage.path? = some file := by
  unfold WriteCall.engaged at h
  split at h
  case h_6 write hstage =>
    rw [hstage]
    exact h
  case h_7 write result hstage =>
    split at h
    · rw [hstage]
      exact h
    · cases h
  all_goals cases h

/-- A live call that is engaged holds the lock. -/
theorem holds_of_engaged {c : WriteCall} (h : c.engaged = some file) (hlive : c.dropped = false) :
    c.holds = true := by
  obtain ⟨relative, baseHash, content, stage, dropped⟩ := c
  obtain rfl : dropped = false := hlive
  cases stage with
  | checked write => rfl
  | ended write result => rfl
  | _ => cases h

theorem holds_of_live {c : WriteCall} (hlive : c.dropped = false) (hwaiting : c.stage ≠ .waiting)
    (hreturned : c.stage ≠ .returned) : c.holds = true := by
  obtain ⟨relative, baseHash, content, stage, dropped⟩ := c
  obtain rfl : dropped = false := hlive
  cases stage with
  | waiting => exact absurd rfl hwaiting
  | returned => exact absurd rfl hreturned
  | _ => rfl

/-- Dropping a call takes nothing up. -/
theorem engaged_of_drop {c : WriteCall}
    (h : WriteCall.engaged { c with dropped := true } = some file) : c.engaged = some file := by
  obtain ⟨relative, baseHash, content, stage, dropped⟩ := c
  cases stage with
  | checked write => exact h
  | ended write result =>
    unfold WriteCall.engaged at h
    simp at h
  | _ => cases h

theorem GoesOn.engaged {c : WriteCall} {tree : FileTree} {stage : CallStage}
    (h : GoesOn env root tree c stage) : WriteCall.engaged { c with stage } = none := by
  cases h <;> rfl

theorem GoesOn.holds {c : WriteCall} {tree : FileTree} {stage : CallStage}
    (h : GoesOn env root tree c stage) (hlive : c.dropped = false) : c.holds = true := by
  cases h with
  | resolve path hstage hpath => exact holds_of_live hlive (by simp [hstage]) (by simp [hstage])
  | compare path write hstage hwrite =>
    exact holds_of_live hlive (by simp [hstage]) (by simp [hstage])
  | spawn write hstage => exact holds_of_live hlive (by simp [hstage]) (by simp [hstage])

theorem Guarded.others (h : Guarded env root file s) (id : Nat) :
    ∀ (other : Nat) d, other ≠ id → s.calls[other]? = some d → Sane env root file s.tree d :=
  fun other d _ hd => h.sane other d hd

/-- A call that has just been made waits for the lock. -/
theorem Guarded.call (h : Guarded env root file s) {c : WriteCall} (hstage : c.stage = .waiting) :
    Guarded env root file { s with calls := s.calls ++ [c] } := by
  have hnew : ∀ (id : Nat) d, (s.calls ++ [c])[id]? = some d →
      s.calls[id]? = some d ∨ d.stage = .waiting := by
    intro id d hd
    rw [List.getElem?_append] at hd
    split at hd
    · exact .inl hd
    · rw [List.mem_singleton.1 (List.mem_of_getElem? hd)]
      exact .inr hstage
  refine ⟨?_, ?_, ?_⟩
  · intro id d hd
    rcases hnew id d hd with hd | hwaiting
    · exact h.sane id d hd
    · exact .of_none (by rw [hwaiting]; rfl)
  · intro id d hd hholds
    rcases hnew id d hd with hd | hwaiting
    · exact h.holds id d hd hholds
    · simp [WriteCall.holds, hwaiting] at hholds
  · intro id other d e hd he hone hother
    rcases hnew id d hd with hd | hwaiting
    · rcases hnew other e he with he | hwaiting
      · exact h.alone id other d e hd he hone hother
      · simp [WriteCall.engaged, hwaiting] at hother
    · simp [WriteCall.engaged, hwaiting] at hone

theorem guarded_step {action : WriteAction} {reply : WriteReply} {s' : WriteWorld}
    (h : Guarded env root file s) (hdoes : Does env root s action reply s')
    (hclear : s.Clear action) (hleaves : LeavesAlone file s action) : Guarded env root file s' := by
  cases hdoes with
  | nothing => exact h
  | call c hstage =>
    exact h.call hstage
  | acquire id c hc hfree =>
    apply h.update (h.others id) (.of_none rfl)
    · intro other _ hwriter
      rw [hfree] at hwriter
      cases hwriter
    · intro _
      rfl
    · intro hengaged
      cases hengaged
  | goesOn id c stage hc hlive hgoes =>
    apply h.update (h.others id) ((h.sane id c hc).goesOn hgoes)
    · exact fun other _ hwriter => hwriter
    · exact fun _ => h.holds id c hc (hgoes.holds hlive)
    · intro hengaged
      rw [hgoes.engaged] at hengaged
      cases hengaged
  | returns id c result hc hlive hwaiting hreturned =>
    apply h.update (h.others id) (.of_none rfl)
    · intro other hne hwriter
      rw [h.holds id c hc (holds_of_live hlive hwaiting hreturned), Option.some.injEq] at hwriter
      exact absurd hwriter.symm hne
    · intro hholds
      simp [WriteCall.holds] at hholds
    · intro hengaged
      cases hengaged
  | check id temporary fails c write hc hstage hcheck =>
    apply h.update (h.others id) ((h.sane id c hc).check hstage hcheck)
    · exact fun other _ hwriter => hwriter
    · intro hholds
      apply h.holds id c hc
      rw [← hholds, WriteCall.holds, hstage]
      rfl
    · intro hengaged other d hne hd hother
      have hwrite : write ∈ c.stage.spawned? := by rw [hstage]; rfl
      obtain ⟨hlive, hlive'⟩ := hclear c hc write hwrite d (List.mem_of_getElem? hd)
        (hother.trans hengaged.symm)
      have hwriter := h.holds id c hc (holds_of_live hlive (by simp [hstage]) (by simp [hstage]))
      rw [h.holds other d hd (holds_of_engaged hother hlive'), Option.some.injEq] at hwriter
      exact hne hwriter
  | fail id c write error after hc hstage hsame =>
    apply h.update
    · intro other d _ hd
      exact (h.sane other d hd).congr fun q _ => hsame q
    · exact ((h.sane id c hc).fail hstage error).congr fun q _ => hsame q
    · exact fun other _ hwriter => hwriter
    · intro hholds
      apply h.holds id c hc
      have hlive : c.dropped = false := by simpa [WriteCall.holds] using hholds
      apply holds_of_live hlive <;> intro hnone <;> rw [hnone] at hstage <;> cases hstage
    · intro hengaged
      simp [WriteCall.engaged, Except.toBool] at hengaged
  | commit id c write after permissions hc hstage hput =>
    have hwrite : c.stage.write? = some write := by rw [hstage]; rfl
    have hengaged : c.engaged = some write.path := by rw [WriteCall.engaged, hstage]
    have hfree : ∀ (other : Nat) d, other ≠ id → s.calls[other]? = some d → write.path = file →
        d.engaged ≠ some file := by
      intro other d hne hd hfile hother
      exact hne (h.alone other id d c hd hc hother (hfile ▸ hengaged))
    apply h.update
    · intro other d hne hd
      exact (h.sane other d hd).put hput (hfree other d hne hd)
    · exact (h.sane id c hc).commit hwrite hput
    · exact fun other _ hwriter => hwriter
    · intro hholds
      apply h.holds id c hc
      rw [← hholds, WriteCall.holds, hstage]
      rfl
    · intro hafter other d hne hd
      apply hfree other d hne hd
      exact Option.some.inj (engaged_path hafter)
  | drop id c hc =>
    apply h.update (h.others id) (h.sane id c hc).drop
    · intro other hne hwriter
      rw [hwriter, if_neg (by simpa using hne)]
    · intro hholds
      simp [WriteCall.holds] at hholds
    · intro hengaged other d hne hd hother
      exact hne (h.alone other id d c hd hc hother (engaged_of_drop hengaged))
  | others after =>
    exact ⟨fun id c hc => (h.sane id c hc).congr hleaves, h.holds, h.alone⟩

theorem guarded_start (tree : FileTree) : Guarded env root file (start tree) := by
  constructor <;> simp [start]

/-! ## Runs -/

/-- The hash that the content of the file has. -/
def hashAt (env : FsEnv) (file : OsPath) (s : WriteWorld) : Str :=
  env.contentHash (contentAt s.tree file)

/-- What a commit on the file swaps. -/
def swapAt (env : FsEnv) (file : OsPath) : WriteReply → Option (Swap Str)
  | .silent => none
  | .committed path baseHash bytes =>
    if path = file then some ⟨baseHash, env.contentHash bytes⟩ else none
  | .returned _ => none

theorem swapAt_eq_some {reply : WriteReply} {w : Swap Str} : swapAt env file reply = some w ↔
    ∃ baseHash bytes, reply = .committed file baseHash bytes ∧
      w = ⟨baseHash, env.contentHash bytes⟩ := by
  cases reply with
  | silent => simp [swapAt]
  | returned result => simp [swapAt]
  | committed path baseHash bytes =>
    unfold swapAt
    by_cases hpath : path = file
    · simp [hpath, eq_comm]
    · simp [hpath]

/-- Commits compare and swap. -/
theorem Guarded.swaps (h : Guarded env root file s) {action : WriteAction} {reply : WriteReply}
    {s' : WriteWorld} (hdoes : Does env root s action reply s')
    (hleaves : LeavesAlone file s action) :
    Machine.Swaps (hashAt env file) (swapAt env file) ⟨s, action, reply, s'⟩ := by
  cases hdoes with
  | fail id c write error after hc hstage hsame =>
    show env.contentHash (contentAt after file) = env.contentHash (contentAt s.tree file)
    rw [contentAt, hsame]
    rfl
  | others after =>
    show env.contentHash (contentAt after file) = env.contentHash (contentAt s.tree file)
    rw [contentAt, hleaves file (List.prefix_refl _)]
    rfl
  | commit id c write after permissions hc hstage hput =>
    by_cases hfile : write.path = file
    · have hbase := (h.sane id c hc).checked write hstage hfile
      have hnow : contentAt after file = write.normalized.utf8 :=
        contentAt_of_file (hfile ▸ hput.now)
      simp only [Machine.Swaps, swapAt, hfile, if_true, Option.elim_some, hashAt]
      exact ⟨hbase, congrArg env.contentHash hnow⟩
    · simp only [Machine.Swaps, swapAt, hfile, if_false, Option.elim_none, hashAt]
      rw [contentAt, hput.others file (Ne.symm hfile)]
      rfl
  | _ => rfl

/-- A file stays a file. -/
theorem stored_step {action : WriteAction} {reply : WriteReply} {s' : WriteWorld}
    (hdoes : Does env root s action reply s') (hleaves : LeavesAlone file s action)
    (h : ∃ bytes permissions, s.tree.node file = some (.file bytes permissions)) :
    ∃ bytes permissions, s'.tree.node file = some (.file bytes permissions) := by
  cases hdoes with
  | fail id c write error after hc hstage hsame => exact (hsame file).symm ▸ h
  | others after => exact (hleaves file (List.prefix_refl _)).symm ▸ h
  | commit id c write after permissions hc hstage hput =>
    by_cases hfile : file = write.path
    · rw [hfile]
      exact ⟨_, _, hput.now⟩
    · exact (hput.others file hfile).symm ▸ h
  | _ => exact h

/-- What a run has to keep to. -/
def Admitted (file : OsPath) (t : Transition WriteWorld WriteAction WriteReply) : Prop :=
  t.before.Clear t.input ∧ LeavesAlone file t.before t.input

theorem guarded_admitted (s : WriteWorld) (action : WriteAction) (h : Guarded env root file s)
    (hadmitted : Admitted file ((machine env root).fire s action)) :
    Guarded env root file ((machine env root).step s action).2 :=
  guarded_step h (step_does action) hadmitted.1 hadmitted.2

variable {actions : List WriteAction}

theorem run_swaps (h : Guarded env root file s)
    (hadmitted : ∀ t ∈ (machine env root).run s actions, Admitted file t) :
    ∀ t ∈ (machine env root).run s actions,
      Machine.Swaps (hashAt env file) (swapAt env file) t := by
  intro t ht
  have hbefore := (Machine.run_invariant_of (C := Admitted file) guarded_admitted h hadmitted ht).1
  have hleaves := (hadmitted t ht).2
  rw [Machine.eq_fire_of_mem_run ht]
  exact hbefore.swaps (step_does t.input) hleaves

theorem final_stored
    (hadmitted : ∀ t ∈ (machine env root).run s actions, Admitted file t)
    (h : ∃ bytes permissions, s.tree.node file = some (.file bytes permissions)) :
    ∃ bytes permissions, ((machine env root).final s actions).tree.node file =
      some (.file bytes permissions) :=
  Machine.final_invariant_of (C := Admitted file)
    (P := fun s => ∃ bytes permissions, s.tree.node file = some (.file bytes permissions))
    (fun _ action h hstep => stored_step (@step_does env root _ action) hstep.2 h)
    h hadmitted

/-- The call returns this snapshot of the file when it is polled now. -/
def Acknowledges (env : FsEnv) (root : WorkspaceRoot) (file : OsPath) (s : WriteWorld) (id : Nat)
    (snapshot : FileSnapshot) : Prop :=
  (s.step env root (.poll id)).1 = .returned (.ok snapshot) ∧
    ∃ c, s.calls[id]? = some c ∧ c.stage.path? = some file

theorem goesOn_silent {id : Nat} {c : WriteCall} {result : Except GuardedFsError CallStage}
    {snapshot : FileSnapshot} : (s.goesOn id c result).1 ≠ .returned (.ok snapshot) := by
  intro h
  cases result <;> cases h

/-- A poll returns a snapshot once the task has committed. -/
theorem poll_returns {id : Nat} {c : WriteCall} {snapshot : FileSnapshot}
    (h : (s.poll env root id c).1 = .returned (.ok snapshot)) :
    ∃ write, c.stage = .ended write (.ok ()) ∧ finishWrite env s.tree write = .ok snapshot := by
  unfold poll at h
  cases hstage : c.stage with
  | waiting =>
    rw [hstage] at h
    simp only at h
    split at h <;> cases h
  | locked =>
    rw [hstage] at h
    exact absurd h goesOn_silent
  | resolved path =>
    rw [hstage] at h
    exact absurd h goesOn_silent
  | compared write =>
    rw [hstage] at h
    exact absurd h goesOn_silent
  | ended write result =>
    rw [hstage] at h
    cases result with
    | error error => cases h
    | ok done => exact ⟨write, rfl, by simpa [returns, Except.bind] using h⟩
  | _ =>
    rw [hstage] at h
    cases h

theorem Acknowledges.ended {id : Nat} {snapshot : FileSnapshot}
    (h : Acknowledges env root file s id snapshot) :
    ∃ c write, s.calls[id]? = some c ∧ c.dropped = false ∧ c.stage = .ended write (.ok ()) ∧
      write.path = file ∧ snapshot.content = write.normalized ∧
        snapshot.hash = env.contentHash write.normalized.utf8 := by
  obtain ⟨hreply, c, hc, hpath⟩ := h
  have hstep : s.step env root (.poll id) =
      if c.dropped then (.silent, s) else s.poll env root id c := by
    rw [step, hc]
    rfl
  rw [hstep] at hreply
  split at hreply
  · cases hreply
  rename_i hlive
  obtain ⟨write, hstage, hfinish⟩ := poll_returns hreply
  obtain ⟨metadata, -, hsnapshot⟩ := bind_eq_ok.1 hfinish
  rw [hstage] at hpath
  cases hsnapshot
  exact ⟨c, write, hc, by simpa using hlive, hstage, Option.some.inj hpath, rfl, rfl⟩

/-- After a call has returned a snapshot of the file, the file keeps its bytes until a commit whose
base they are. -/
def Kept (env : FsEnv) (root : WorkspaceRoot) (file : OsPath) (s₀ : WriteWorld)
    (actions : List WriteAction) : Prop :=
  ∀ before id after snapshot, actions = before ++ .poll id :: after →
    Acknowledges env root file ((machine env root).final s₀ before) id snapshot →
      (∀ t ∈ (machine env root).run ((machine env root).final s₀ before) (.poll id :: after),
        ∀ baseHash bytes, t.output = .committed file baseHash bytes → baseHash ≠ snapshot.hash) →
        ∃ permissions, ((machine env root).final s₀ actions).tree.node file =
          some (.file snapshot.content.utf8 permissions)

/-- Between two commits on the file with one base, from the first on, one of the commits has put the
base back. -/
def SpentOnce (env : FsEnv) (root : WorkspaceRoot) (file : OsPath) (s₀ : WriteWorld)
    (actions : List WriteAction) : Prop :=
  ∀ before first between second after baseHash bytes bytes',
    actions = before ++ first :: (between ++ second :: after) →
      (((machine env root).final s₀ before).step env root first).1 =
        .committed file baseHash bytes →
        (((machine env root).final s₀ (before ++ first :: between)).step env root second).1 =
          .committed file baseHash bytes' →
          ∃ t ∈ (machine env root).run ((machine env root).final s₀ before) (first :: between),
            ∃ base back, t.output = .committed file base back ∧ env.contentHash back = baseHash

/-- No acknowledged write is lost, and no base is spent twice, in a run in which no blocking task
re-checks a file while another call that has checked it, or itself, was dropped. -/
theorem acknowledged_writes_kept (env : FsEnv) (hhash : Function.Injective env.contentHash)
    (root : WorkspaceRoot) (tree : FileTree) (file : OsPath) (actions : List WriteAction)
    (hleaves : ∀ t ∈ (machine env root).run (start tree) actions,
      LeavesAlone file t.before t.input)
    (hclear : ∀ t ∈ (machine env root).run (start tree) actions, t.before.Clear t.input) :
    Kept env root file (start tree) actions ∧ SpentOnce env root file (start tree) actions := by
  have hgoes : ∀ reply, (machine env root).halts reply = false := fun _ => rfl
  have hadmitted : ∀ t ∈ (machine env root).run (start tree) actions, Admitted file t :=
    fun t ht => ⟨hclear t ht, hleaves t ht⟩
  constructor
  · intro before id after snapshot hactions hacknowledged hbase
    rw [hactions, Machine.run_append hgoes, List.forall_mem_append] at hadmitted
    rw [hactions, Machine.final_append hgoes]
    obtain ⟨hbefore, hafter⟩ := hadmitted
    have hguarded : Guarded env root file ((machine env root).final (start tree) before) :=
      Machine.final_invariant_of (C := Admitted file) guarded_admitted (guarded_start tree) hbefore
    generalize (machine env root).final (start tree) before = s at *
    obtain ⟨c, write, hc, hlive, hstage, hfile, hcontent, hsnapshot⟩ := hacknowledged.ended
    obtain ⟨permissions, hnode⟩ := (hguarded.sane id c hc).ended write hstage hlive hfile
    have hnow : hashAt env file s = snapshot.hash := by
      rw [hashAt, contentAt_of_file hnode, hsnapshot]
    have hother : ∀ t ∈ (machine env root).run s (.poll id :: after), ∀ w,
        swapAt env file t.output = some w → w.base ≠ hashAt env file s := by
      intro t ht w hw
      obtain ⟨baseHash, bytes, houtput, rfl⟩ := swapAt_eq_some.1 hw
      rw [hnow]
      exact hbase t ht baseHash bytes houtput
    have hkept := Machine.final_eq_of_no_swap (run_swaps hguarded hafter) hother
    obtain ⟨bytes, permissions', hstored⟩ := final_stored hafter ⟨_, _, hnode⟩
    rw [hnow, hashAt, contentAt_of_file hstored, hsnapshot] at hkept
    rw [hcontent, ← hhash hkept]
    exact ⟨permissions', hstored⟩
  · intro before first between second after baseHash bytes bytes' hactions hfirst hsecond
    rw [hactions, Machine.run_append hgoes, List.forall_mem_append] at hadmitted
    rw [Machine.final_append hgoes] at hsecond
    obtain ⟨hbefore, hafter⟩ := hadmitted
    have hguarded : Guarded env root file ((machine env root).final (start tree) before) :=
      Machine.final_invariant_of (C := Admitted file) guarded_admitted (guarded_start tree) hbefore
    generalize (machine env root).final (start tree) before = s at *
    have hswaps := run_swaps hguarded hafter
    rw [← List.cons_append, Machine.run_append hgoes, List.forall_mem_append] at hswaps
    obtain ⟨hswaps, hspent⟩ := hswaps
    rw [Machine.run, List.forall_mem_cons] at hspent
    -- the second commit finds the base, so it is there at the end of what comes before
    have hfinal := hspent.1.found (swapAt_eq_some.2 ⟨baseHash, bytes', hsecond, rfl⟩)
    obtain ⟨t, ht, w, hw, hback⟩ := Machine.exists_swap_back rfl hswaps
      (swapAt_eq_some.2 ⟨baseHash, bytes, hfirst, rfl⟩) hfinal
    obtain ⟨base, back, houtput, rfl⟩ := swapAt_eq_some.1 hw
    exact ⟨t, ht, base, back, houtput, hback⟩

theorem contentHash_injective : Function.Injective plainEnv.contentHash := by
  apply List.map_injective_iff.2
  intro a b h
  have hvalid : ∀ n < 256, (Char.ofNat n).toNat = n := by decide +kernel
  have hnat := congrArg Char.toNat h
  rw [hvalid _ a.toNat_lt, hvalid _ b.toNat_lt] at hnat
  exact UInt8.toNat_inj.1 hnat

def note : OsPath := [Str.utf8 "work", Str.utf8 "note"]

def noteTree : FileTree :=
  ((⟨∅⟩ : FileTree).insert [Str.utf8 "work"] (.directory 0 ⟨true, true, true⟩)).insert note
    (.file (Str.utf8 "base\n") ⟨0o100600, true⟩)

def taskOf (id : Nat) : WriteAction := .task id (Str.utf8 ".note.tmp") fun _ => none

/-- Two calls with one base. -/
def twoCalls : List WriteAction :=
  [.call (Str.utf8 "note") "base\n" "left\n", .call (Str.utf8 "./note") "base\n" "right\n"]

/-- The first call returns before the second one is its turn. -/
def inTurn : List WriteAction :=
  twoCalls ++ List.replicate 4 (.poll 0) ++ [taskOf 0, .poll 1, taskOf 0, .poll 0] ++
    List.replicate 3 (.poll 1)

theorem acknowledged_writes_kept_inTurn :
    Acknowledges plainEnv ⟨[Str.utf8 "work"]⟩ note
        ((machine plainEnv ⟨[Str.utf8 "work"]⟩).final (start noteTree) (inTurn.take 9)) 0
        (snapshot plainEnv "left\n" (some ⟨0o100600, true⟩)) ∧
      Kept plainEnv ⟨[Str.utf8 "work"]⟩ note (start noteTree) inTurn ∧
        SpentOnce plainEnv ⟨[Str.utf8 "work"]⟩ note (start noteTree) inTurn := by
  refine ⟨⟨by decide +kernel, Option.bind_eq_some_iff.1 (by decide +kernel)⟩, ?_⟩
  exact acknowledged_writes_kept plainEnv contentHash_injective _ noteTree note inTurn
    (by decide +kernel) (by decide +kernel)

/-- The first call is dropped when its task has re-checked the file. -/
def disconnected : List WriteAction :=
  twoCalls ++ List.replicate 4 (.poll 0) ++ [taskOf 0, .drop 0] ++ List.replicate 4 (.poll 1) ++
    [taskOf 1, taskOf 1, .poll 1, taskOf 0]

/-- The second call is told that its text is in the file. Then the task of the first one replaces
it: both calls commit from one base. -/
theorem acknowledged_write_lost :
    (∀ t ∈ (machine plainEnv ⟨[Str.utf8 "work"]⟩).run (start noteTree) disconnected,
        LeavesAlone note t.before t.input) ∧
      ¬ Kept plainEnv ⟨[Str.utf8 "work"]⟩ note (start noteTree) disconnected ∧
        ¬ SpentOnce plainEnv ⟨[Str.utf8 "work"]⟩ note (start noteTree) disconnected := by
  let M := machine plainEnv ⟨[Str.utf8 "work"]⟩
  let acknowledged := snapshot plainEnv "right\n" (some ⟨0o100600, true⟩)
  let right := WriteReply.committed note "base\n" (Str.utf8 "right\n")
  let left := WriteReply.committed note "base\n" (Str.utf8 "left\n")
  have hcommit : M.outputs (M.final (start noteTree) (disconnected.take 13))
      [taskOf 1, .poll 1] = [right, .returned (.ok acknowledged)] := by decide +kernel
  have hlost : M.outputs (M.final (start noteTree) (disconnected.take 14))
      [.poll 1, taskOf 0] = [.returned (.ok acknowledged), left] := by decide +kernel
  have hfinal : (M.final (start noteTree) disconnected).tree.node note =
      some (.file (Str.utf8 "left\n") ⟨0o100600, true⟩) := by decide +kernel
  refine ⟨by decide +kernel, ?_, ?_⟩
  · intro hkept
    obtain ⟨permissions, hnode⟩ := hkept (disconnected.take 14) 1 [taskOf 0] acknowledged rfl
      ⟨by decide +kernel, Option.bind_eq_some_iff.1 (by decide +kernel)⟩ (by
        intro t ht baseHash bytes houtput
        have hmem := List.mem_map_of_mem (f := (·.output)) ht
        rw [← Machine.outputs, hlost, houtput] at hmem
        have hsame : baseHash = "base\n" ∧ bytes = Str.utf8 "left\n" := by
          simpa [left] using hmem
        rw [hsame.1]
        decide +kernel)
    rw [hfinal, Option.some.injEq, Node.file.injEq] at hnode
    exact absurd hnode.1 (by decide +kernel)
  · intro hspent
    obtain ⟨t, ht, base, back, houtput, hback⟩ := hspent (disconnected.take 13) (taskOf 1)
      [.poll 1] (taskOf 0) [] "base\n" (Str.utf8 "right\n") (Str.utf8 "left\n") rfl
      (by decide +kernel) (by decide +kernel)
    have hmem := List.mem_map_of_mem (f := (·.output)) ht
    rw [← Machine.outputs, hcommit, houtput] at hmem
    have hsame : base = "base\n" ∧ back = Str.utf8 "right\n" := by simpa [right] using hmem
    rw [hsame.2] at hback
    exact absurd hback (by decide +kernel)

/-! ## Calls that are waited for -/

/-- No future is dropped while its task is in flight. -/
def Waited (s : WriteWorld) : WriteAction → Prop
  | .call _ _ _ => True
  | .poll _ => True
  | .task _ _ _ => True
  | .drop id => ∀ c ∈ s.calls[id]?, c.stage.inFlight = false
  | .others _ => True

/-- The task of a dropped call has ended, if it was spawned. -/
def Finished (s : WriteWorld) : Prop :=
  ∀ (id : Nat) c, s.calls[id]? = some c → c.dropped = true → c.stage.inFlight = false

theorem Finished.withCall (h : Finished s) {id : Nat} {c' : WriteCall} {tree : FileTree}
    {writer : Option Nat} (hc : c'.dropped = true → c'.stage.inFlight = false) :
    Finished ⟨tree, writer, s.calls.set id c'⟩ := by
  intro other d hd hdropped
  rcases getElem?_set_cases hd with ⟨-, rfl⟩ | ⟨-, hd⟩
  · exact hc hdropped
  · exact h other d hd hdropped

theorem finished_step {action : WriteAction} {reply : WriteReply} {s' : WriteWorld}
    (h : Finished s) (hdoes : Does env root s action reply s') (hwaited : s.Waited action) :
    Finished s' := by
  cases hdoes with
  | nothing => exact h
  | call c hstage =>
    intro id d hd hdropped
    rw [List.getElem?_append] at hd
    split at hd
    · exact h id d hd hdropped
    · rw [List.mem_singleton.1 (List.mem_of_getElem? hd), hstage]
      rfl
  | acquire id c hc hfree => exact h.withCall fun _ => rfl
  | goesOn id c stage hc hlive hgoes =>
    apply h.withCall
    intro hdropped
    exact absurd (hlive.symm.trans hdropped) Bool.false_ne_true
  | returns id c result hc hlive hwaiting hreturned => exact h.withCall fun _ => rfl
  | check id temporary fails c write hc hstage hcheck =>
    apply h.withCall
    intro hdropped
    have hended := h id c hc hdropped
    rw [hstage] at hended
    cases hended
  | fail id c write error after hc hstage hsame => exact h.withCall fun _ => rfl
  | commit id c write after permissions hc hstage hput => exact h.withCall fun _ => rfl
  | drop id c hc => exact h.withCall fun _ => hwaited c hc
  | others after => exact h

theorem Finished.clear (h : Finished s) (action : WriteAction) : s.Clear action := by
  cases action with
  | task id temporary fails =>
    intro c hc write hwrite d hd hengaged
    have hlive : ∀ (id : Nat) c, s.calls[id]? = some c → c.stage.inFlight = true →
        c.dropped = false := by
      intro id c hc hflight
      rw [← Bool.not_eq_true]
      intro hdropped
      rw [h id c hc hdropped] at hflight
      cases hflight
    obtain ⟨other, hd⟩ := List.mem_iff_getElem?.1 hd
    constructor
    · apply hlive id c hc
      cases hstage : c.stage <;> rw [hstage] at hwrite <;> cases hwrite
      rfl
    · cases hstage : d.stage with
      | checked write => exact hlive other d hd (by rw [hstage]; rfl)
      | ended write result =>
        rw [WriteCall.engaged, hstage] at hengaged
        simp only at hengaged
        split at hengaged
        · rename_i hended
          simpa using hended.2
        · cases hengaged
      | _ =>
        rw [WriteCall.engaged, hstage] at hengaged
        cases hengaged
  | _ => trivial

/-- While no future is dropped whose task is in flight, the writer lock keeps the calls apart. -/
theorem clear_of_waited {tree : FileTree}
    (hwaited : ∀ t ∈ (machine env root).run (start tree) actions, t.before.Waited t.input) :
    ∀ t ∈ (machine env root).run (start tree) actions, t.before.Clear t.input := by
  intro t ht
  have hfinished : Finished (start tree) := by
    intro id c hc
    cases hc
  have hbefore := (Machine.run_invariant_of (P := Finished) (C := fun t => t.before.Waited t.input)
    (fun s action h hstep => finished_step h (step_does action) hstep) hfinished hwaited ht).1
  exact hbefore.clear t.input

end WriteWorld

end LeaveCli.Core
