import LeaveCli.Lib.Results
import LeaveCli.Web.Timeline
import Mathlib.Logic.Function.Basic

/-!
# The timeline keeps the streamed text

Every event that adds to the timeline has a `home`, the place of the message it made or was added
to. `Attributed` says what follows for the chunks; `Run` is the invariant of the second loop, which
has besides where the ids of messages come from: ids of events, of chunks with a message id and of
chunks without one never meet (`chunkId_injective`, `chunkId_ne_autoId`), as event ids are UUIDs.
One lemma for each thing a round can do keeps it, and `buildTimeline_conserves` is the whole run.
-/

namespace LeaveCli.Web.Timeline

open Lib

variable {ν : Type} {browser : Browser ν} {events : List (LocalEvent ν)} {event : LocalEvent ν}
  {messages : List TimelineMessage}

/-! ## What an event adds -/

variable (browser) in
/-- The streamed text of a session update, none where it is empty. -/
def chunkOf (event : LocalEvent ν) : Option Chunk :=
  if event.kind = ("session_update" : Str) then
    match readUpdate browser event with
    | .ok (.chunk chunk) => some chunk
    | _ => none
  else none

variable (browser) in
/-- The name of a session update. -/
def updateKind (event : LocalEvent ν) : Except JsError Str :=
  stringOr browser (field (record (field event.payload "update")) "sessionUpdate") (.ok [])

variable (browser) in
/-- A prompt, an approval, a failure, a cancellation or a tool call. -/
def Produces (event : LocalEvent ν) : Prop :=
  event.kind ∈ [("user_prompt" : Str), "permission_requested", "prompt_failed",
    "session_cancelled"] ∨
  event.kind = ("session_update" : Str) ∧
    (updateKind browser event = .ok "tool_call" ∨ updateKind browser event = .ok "tool_call_update")

/-- The kinds of streamed messages. -/
def IsStreamed (kind : MessageKind) : Prop := kind = .agent ∨ kind = .thought ∨ kind = .user

/-- The message of an event that is no session update. -/
theorem readMessage_cases {resolutions : List (Str × Str)} {entry : Entry}
    (h : readMessage browser resolutions event = .ok entry) :
    (∃ message, entry = .message message ∧ message.id = event.eventId ∧
      event.kind ∈ [("user_prompt" : Str), "permission_requested", "prompt_failed",
        "session_cancelled"]) ∨
    entry = .nothing ∧ event.kind ∉ [("user_prompt" : Str), "permission_requested",
      "prompt_failed", "session_cancelled"] := by
  unfold readMessage at h
  split at h
  · rename_i hkind
    obtain ⟨body, -, h⟩ := bind_eq_ok.1 h
    obtain ⟨time, -, h⟩ := bind_eq_ok.1 h
    cases h
    exact .inl ⟨_, rfl, rfl, by simp [hkind]⟩
  · split at h
    · rename_i hkind
      obtain ⟨requestId, -, h⟩ := bind_eq_ok.1 h
      obtain ⟨body, -, h⟩ := bind_eq_ok.1 h
      obtain ⟨time, -, h⟩ := bind_eq_ok.1 h
      obtain ⟨options, -, h⟩ := bind_eq_ok.1 h
      cases h
      exact .inl ⟨_, rfl, rfl, by simp [hkind]⟩
    · split at h
      · rename_i hkind
        obtain ⟨body, -, h⟩ := bind_eq_ok.1 h
        obtain ⟨time, -, h⟩ := bind_eq_ok.1 h
        cases h
        exact .inl ⟨_, rfl, rfl, by simp [hkind]⟩
      · split at h
        · rename_i hkind
          obtain ⟨time, -, h⟩ := bind_eq_ok.1 h
          cases h
          exact .inl ⟨_, rfl, rfl, by simp [hkind]⟩
        · rename_i hprompt hrequest hfailed hcancelled
          cases h
          refine .inr ⟨rfl, ?_⟩
          simp only [List.mem_cons, List.not_mem_nil, or_false, not_or]
          exact ⟨hprompt, hrequest, hfailed, hcancelled⟩

/-- What a session update is: a chunk, a tool call or nothing. -/
theorem readUpdate_cases {entry : Entry} (h : readUpdate browser event = .ok entry) :
    (∃ chunk, entry = .chunk chunk ∧ IsStreamed chunk.kind ∧ chunk.text ≠ [] ∧
      updateKind browser event ≠ .ok "tool_call" ∧
      updateKind browser event ≠ .ok "tool_call_update") ∨
    (∃ message, entry = .message message ∧ message.id = event.eventId ∧
      (updateKind browser event = .ok "tool_call" ∨
        updateKind browser event = .ok "tool_call_update")) ∨
    (entry = .nothing ∧ updateKind browser event ≠ .ok "tool_call" ∧
      updateKind browser event ≠ .ok "tool_call_update") := by
  unfold readUpdate at h
  obtain ⟨kind, hkind, h⟩ := bind_eq_ok.1 h
  have hupdate : updateKind browser event = .ok kind := hkind
  rw [hupdate]
  split at h
  · rename_i hchunk
    have hne : (Except.ok kind : Except JsError Str) ≠ .ok "tool_call" ∧
        (Except.ok kind : Except JsError Str) ≠ .ok "tool_call_update" := by
      simp only [List.mem_cons, List.not_mem_nil, or_false] at hchunk
      rcases hchunk with rfl | rfl | rfl <;> decide
    obtain ⟨text, -, h⟩ := bind_eq_ok.1 h
    split at h
    · cases h
      exact .inr (.inr ⟨rfl, hne⟩)
    · rename_i htext
      obtain ⟨messageId, -, h⟩ := bind_eq_ok.1 h
      cases h
      refine .inl ⟨_, rfl, ?_, htext, hne⟩
      show IsStreamed (if _ then _ else if _ then _ else _)
      split
      · exact .inl rfl
      · split
        · exact .inr (.inr rfl)
        · exact .inr (.inl rfl)
  · split at h
    · rename_i htool
      obtain ⟨body, -, h⟩ := bind_eq_ok.1 h
      obtain ⟨status, -, h⟩ := bind_eq_ok.1 h
      cases h
      refine .inr (.inl ⟨_, rfl, rfl, ?_⟩)
      rcases htool with rfl | rfl
      · exact .inl rfl
      · exact .inr rfl
    · rename_i htool
      cases h
      push Not at htool
      refine .inr (.inr ⟨rfl, fun hcall => htool.1 ?_, fun hcall => htool.2 ?_⟩)
      · exact Except.ok.inj hcall
      · exact Except.ok.inj hcall

/-- Each event makes a message, is a chunk, or leaves the timeline alone. -/
theorem readEvent_cases {resolutions : List (Str × Str)} {entry : Entry}
    (h : readEvent browser resolutions event = .ok entry) :
    (∃ message, entry = .message message ∧ message.id = event.eventId ∧
      Produces browser event ∧ chunkOf browser event = none) ∨
    (∃ chunk, entry = .chunk chunk ∧ chunkOf browser event = some chunk ∧
      IsStreamed chunk.kind ∧ ¬ Produces browser event) ∨
    (entry = .nothing ∧ chunkOf browser event = none ∧ ¬ Produces browser event) := by
  unfold readEvent at h
  unfold chunkOf Produces
  split at h
  · rename_i hupdate
    have hother : event.kind ∉ [("user_prompt" : Str), "permission_requested", "prompt_failed",
        "session_cancelled"] := by
      rw [hupdate]
      decide
    rw [if_pos hupdate, h]
    rcases readUpdate_cases h with ⟨chunk, rfl, hstreamed, -, hcall, hcall'⟩ |
      ⟨message, rfl, hid, hcall⟩ | ⟨rfl, hcall, hcall'⟩
    · refine .inr (.inl ⟨chunk, rfl, rfl, hstreamed, ?_⟩)
      rintro (hmem | ⟨-, hmem | hmem⟩)
      · exact hother hmem
      · exact hcall hmem
      · exact hcall' hmem
    · exact .inl ⟨message, rfl, hid, .inr ⟨hupdate, hcall⟩, rfl⟩
    · refine .inr (.inr ⟨rfl, rfl, ?_⟩)
      rintro (hmem | ⟨-, hmem | hmem⟩)
      · exact hother hmem
      · exact hcall hmem
      · exact hcall' hmem
  · rename_i hupdate
    rw [if_neg hupdate]
    rcases readMessage_cases h with ⟨message, rfl, hid, hkind⟩ | ⟨rfl, hkind⟩
    · exact .inl ⟨message, rfl, hid, .inl hkind, rfl⟩
    · refine .inr (.inr ⟨rfl, rfl, ?_⟩)
      rintro (hmem | ⟨hmem, -⟩)
      · exact hkind hmem
      · exact hupdate hmem

/-! ## Ids -/

/-- The length and the characters of the text of a UUID. -/
def IsUuidText (s : Str) : Prop :=
  s.length = 36 ∧ ∀ c ∈ s, (c.isDigit || ('a' ≤ c && c ≤ 'f') || ('A' ≤ c && c ≤ 'F') ||
    c = '-') = true

theorem colon_notMem_of_isUuidText {s : Str} (h : IsUuidText s) : ':' ∉ s :=
  fun hmem => absurd (h.2 _ hmem) (by decide)

theorem colon_notMem_text (kind : MessageKind) : ':' ∉ kind.text := by
  cases kind <;> decide

/-- The last colon cuts a text in two in one way. -/
theorem append_colon_inj {a b c d : Str} (hb : ':' ∉ b) (hd : ':' ∉ d)
    (h : a ++ ':' :: b = c ++ ':' :: d) : a = c ∧ b = d := by
  rcases List.append_eq_append_iff.1 h with ⟨t, rfl, ht⟩ | ⟨t, rfl, ht⟩
  · cases t with
    | nil => exact ⟨(List.append_nil a).symm, (List.cons.inj ht).2⟩
    | cons x t =>
      refine absurd ?_ hb
      rw [(List.cons.inj ht).2]
      exact List.mem_append_right t List.mem_cons_self
  · cases t with
    | nil => exact ⟨List.append_nil c, (List.cons.inj ht).2.symm⟩
    | cons x t =>
      refine absurd ?_ hd
      rw [(List.cons.inj ht).2]
      exact List.mem_append_right t List.mem_cons_self

theorem text_injective {kind kind' : MessageKind} (h : kind.text = kind'.text) : kind = kind' := by
  cases kind <;> cases kind' <;> first | rfl | exact absurd h (by decide)

theorem chunkId_eq (messageId : Str) (kind : MessageKind) :
    chunkId messageId kind = ("chunk:" : Str) ++ (messageId ++ ':' :: kind.text) :=
  List.append_assoc _ _ _

theorem autoId_eq (eventId : Str) :
    autoId eventId = ("chunk:" : Str) ++ (("auto" : Str) ++ ':' :: eventId) :=
  rfl

theorem chunkId_injective {messageId messageId' : Str} {kind kind' : MessageKind}
    (h : chunkId messageId kind = chunkId messageId' kind') :
    messageId = messageId' ∧ kind = kind' := by
  rw [chunkId_eq, chunkId_eq] at h
  obtain ⟨hid, htext⟩ := append_colon_inj (colon_notMem_text kind) (colon_notMem_text kind')
    (List.append_cancel_left h)
  exact ⟨hid, text_injective htext⟩

theorem chunkId_ne_autoId (messageId : Str) (kind : MessageKind) {eventId : Str}
    (h : IsUuidText eventId) : chunkId messageId kind ≠ autoId eventId := by
  intro heq
  rw [chunkId_eq, autoId_eq] at heq
  obtain ⟨-, htext⟩ := append_colon_inj (colon_notMem_text kind) (colon_notMem_of_isUuidText h)
    (List.append_cancel_left heq)
  have hlength : kind.text.length = 36 := (congrArg List.length htext).trans h.1
  revert hlength
  cases kind <;> decide

theorem autoId_injective {eventId eventId' : Str} (h : autoId eventId = autoId eventId') :
    eventId = eventId' := List.append_cancel_left h

def IsChunkId (id : Str) : Prop := ("chunk:" : Str) <+: id

theorem isChunkId_chunkId (messageId : Str) (kind : MessageKind) :
    IsChunkId (chunkId messageId kind) := by
  rw [chunkId_eq]
  exact List.prefix_append _ _

theorem isChunkId_autoId (eventId : Str) : IsChunkId (autoId eventId) := by
  rw [autoId_eq]
  exact List.prefix_append _ _

theorem not_isChunkId_of_isUuidText {eventId : Str} (h : IsUuidText eventId) :
    ¬ IsChunkId eventId := by
  rintro ⟨rest, rfl⟩
  exact colon_notMem_of_isUuidText h (List.mem_append_left rest (by decide))

/-! ## Attribution -/

variable (browser) in
/-- The texts of the chunks that have their home at one place, in the order of the events. -/
def bodyAt (events : List (LocalEvent ν)) (home : Nat → Nat) (place : Nat) : Str :=
  (events.zipIdx.map fun entry =>
    if home entry.2 = place then ((chunkOf browser entry.1).map Chunk.text).getD [] else []).flatten

theorem bodyAt_congr {home home' : Nat → Nat} (h : ∀ i < events.length, home i = home' i)
    (place : Nat) : bodyAt browser events home place = bodyAt browser events home' place := by
  refine congrArg List.flatten (List.map_congr_left fun entry hentry => ?_)
  have hlt := (List.getElem?_eq_some_iff.1 (List.mem_zipIdx_iff_getElem?.1 hentry)).1
  rw [h entry.2 hlt]

theorem bodyAt_append (home : Nat → Nat) (place : Nat) (event : LocalEvent ν) :
    bodyAt browser (events ++ [event]) home place = bodyAt browser events home place ++
      if home events.length = place then ((chunkOf browser event).map Chunk.text).getD []
      else [] := by
  rw [bodyAt, List.zipIdx_append, List.map_append, List.flatten_append, bodyAt]
  simp

/-- Nothing has its home where no chunk has. -/
theorem bodyAt_eq_nil {home : Nat → Nat} {place : Nat}
    (h : ∀ i event chunk, events[i]? = some event → chunkOf browser event = some chunk →
      home i ≠ place) : bodyAt browser events home place = [] := by
  refine List.flatten_eq_nil_iff.2 fun text htext => ?_
  obtain ⟨⟨event, i⟩, hentry, rfl⟩ := List.mem_map.1 htext
  have hevent := List.mem_zipIdx_iff_getElem?.1 hentry
  split
  · rename_i hhome
    cases hchunk : chunkOf browser event with
    | none => rfl
    | some chunk => exact absurd hhome (h i event chunk hevent hchunk)
  · rfl

/-! ## The invariant -/

/-- Where the id of a message comes from. -/
def Origin (events : List (LocalEvent ν)) (message : TimelineMessage) : Prop :=
  (∃ messageId, message.id = chunkId messageId message.kind) ∨
  ∃ event ∈ events, message.id = autoId event.eventId ∨ message.id = event.eventId

variable (browser) in
/-- What holds after some of the events. -/
structure Run (resolutions : List (Str × Str)) (events : List (LocalEvent ν))
    (messages : List TimelineMessage) (home : Nat → Nat) : Prop where
  chunk : ∀ i event chunk, events[i]? = some event → chunkOf browser event = some chunk →
    ∃ message, messages[home i]? = some message ∧ message.kind = chunk.kind ∧
      IsChunkId message.id ∧
      (chunk.messageId ≠ [] → message.id = chunkId chunk.messageId chunk.kind)
  produced : ∀ i event, events[i]? = some event → Produces browser event →
    ∃ message, messages[home i]? = some message ∧ message.id = event.eventId ∧
      readEvent browser resolutions event = .ok (.message message)
  owner : ∀ place message, messages[place]? = some message →
    ∃ i event, events[i]? = some event ∧ home i = place ∧
      (Produces browser event ∨ ∃ chunk, chunkOf browser event = some chunk)
  body : ∀ place message, messages[place]? = some message → IsChunkId message.id →
    message.body = bodyAt browser events home place
  later : ∀ i event chunk k earlier, events[i]? = some event → chunkOf browser event = some chunk →
    chunk.messageId = [] → events[k]? = some earlier → Produces browser earlier → k < i →
      home k < home i
  origin : ∀ message ∈ messages, Origin events message
  nodup : (messages.map TimelineMessage.id).Nodup

theorem Origin.mono {message : TimelineMessage} (h : Origin events message)
    (event : LocalEvent ν) : Origin (events ++ [event]) message := by
  rcases h with hchunk | ⟨found, hmem, hid⟩
  · exact .inl hchunk
  · exact .inr ⟨found, List.mem_append_left _ hmem, hid⟩

theorem lt_of_getElem? {α : Type} {xs : List α} {i : Nat} {x : α} (h : xs[i]? = some x) :
    i < xs.length := (List.getElem?_eq_some_iff.1 h).1

/-- An event is an earlier one or the last. -/
theorem getElem?_append_singleton_cases {α : Type} {xs : List α} {last x : α} {i : Nat}
    (h : (xs ++ [last])[i]? = some x) :
    (i < xs.length ∧ xs[i]? = some x) ∨ (i = xs.length ∧ x = last) := by
  rcases Nat.lt_trichotomy i xs.length with hlt | rfl | hgt
  · rw [List.getElem?_append_left hlt] at h
    exact .inl ⟨hlt, h⟩
  · rw [List.getElem?_concat_length] at h
    exact .inr ⟨rfl, (Option.some.inj h).symm⟩
  · have hlt := lt_of_getElem? h
    rw [List.length_append, List.length_singleton] at hlt
    omega

variable {resolutions : List (Str × Str)} {home : Nat → Nat}

theorem Run.start : Run browser resolutions [] [] home where
  chunk i event chunk h := by simp at h
  produced i event h := by simp at h
  owner place message h := by simp at h
  body place message h := by simp at h
  later i event chunk k earlier h := by simp at h
  origin message h := absurd h List.not_mem_nil
  nodup := List.nodup_nil

/-- An event that the timeline does not show. -/
theorem Run.nothing (run : Run browser resolutions events messages home)
    (hchunk : chunkOf browser event = none) (hproduces : ¬ Produces browser event) :
    Run browser resolutions (events ++ [event]) messages home where
  chunk i found chunk hfound hsome := by
    rcases getElem?_append_singleton_cases hfound with ⟨-, hfound⟩ | ⟨-, rfl⟩
    · exact run.chunk i found chunk hfound hsome
    · rw [hchunk] at hsome
      cases hsome
  produced i found hfound hmakes := by
    rcases getElem?_append_singleton_cases hfound with ⟨-, hfound⟩ | ⟨-, rfl⟩
    · exact run.produced i found hfound hmakes
    · exact absurd hmakes hproduces
  owner place message hmessage := by
    obtain ⟨i, found, hfound, howner⟩ := run.owner place message hmessage
    exact ⟨i, found, List.getElem?_append_left (lt_of_getElem? hfound) ▸ hfound, howner⟩
  body place message hmessage hid := by
    rw [bodyAt_append, hchunk, run.body place message hmessage hid]
    simp
  later i found chunk k earlier hfound hsome hempty hearlier hmakes hlt := by
    rcases getElem?_append_singleton_cases hfound with ⟨-, hfound⟩ | ⟨-, rfl⟩
    · rcases getElem?_append_singleton_cases hearlier with ⟨-, hearlier⟩ | ⟨-, rfl⟩
      · exact run.later i found chunk k earlier hfound hsome hempty hearlier hmakes hlt
      · exact absurd hmakes hproduces
    · rw [hchunk] at hsome
      cases hsome
  origin message hmem := (run.origin message hmem).mono event
  nodup := run.nodup

/-- The new event's home. -/
theorem update_of_lt {i place : Nat} (h : i < events.length) :
    Function.update home events.length place i = home i :=
  Function.update_of_ne (Nat.ne_of_lt h) place home

theorem bodyAt_update (place target : Nat) :
    bodyAt browser events (Function.update home events.length target) place =
      bodyAt browser events home place := bodyAt_congr (fun _ h => update_of_lt h) place

/-- An event that makes a message, its own or a chunk's. -/
theorem Run.push (run : Run browser resolutions events messages home) {message : TimelineMessage}
    (hfresh : message.id ∉ messages.map TimelineMessage.id)
    (horigin : Origin (events ++ [event]) message)
    (hchunk : ∀ chunk, chunkOf browser event = some chunk →
      message.kind = chunk.kind ∧ IsChunkId message.id ∧
        (chunk.messageId ≠ [] → message.id = chunkId chunk.messageId chunk.kind))
    (hproduced : Produces browser event → message.id = event.eventId ∧
      readEvent browser resolutions event = .ok (.message message))
    (howner : Produces browser event ∨ ∃ chunk, chunkOf browser event = some chunk)
    (hbody : IsChunkId message.id →
      message.body = ((chunkOf browser event).map Chunk.text).getD []) :
    Run browser resolutions (events ++ [event]) (messages ++ [message])
      (Function.update home events.length messages.length) where
  chunk i found chunk hfound hsome := by
    rcases getElem?_append_singleton_cases hfound with ⟨hlt, hfound⟩ | ⟨rfl, rfl⟩
    · obtain ⟨old, hold, hfacts⟩ := run.chunk i found chunk hfound hsome
      refine ⟨old, ?_, hfacts⟩
      rw [update_of_lt hlt, List.getElem?_append_left (lt_of_getElem? hold), hold]
    · refine ⟨message, ?_, hchunk chunk hsome⟩
      rw [Function.update_self, List.getElem?_concat_length]
  produced i found hfound hmakes := by
    rcases getElem?_append_singleton_cases hfound with ⟨hlt, hfound⟩ | ⟨rfl, rfl⟩
    · obtain ⟨old, hold, hfacts⟩ := run.produced i found hfound hmakes
      refine ⟨old, ?_, hfacts⟩
      rw [update_of_lt hlt, List.getElem?_append_left (lt_of_getElem? hold), hold]
    · refine ⟨message, ?_, hproduced hmakes⟩
      rw [Function.update_self, List.getElem?_concat_length]
  owner place found hfound := by
    rcases getElem?_append_singleton_cases hfound with ⟨-, hfound⟩ | ⟨rfl, rfl⟩
    · obtain ⟨i, earlier, hearlier, hhome, hshown⟩ := run.owner place found hfound
      have hlt := lt_of_getElem? hearlier
      refine ⟨i, earlier, ?_, ?_, hshown⟩
      · rw [List.getElem?_append_left hlt, hearlier]
      · rw [update_of_lt hlt, hhome]
    · exact ⟨events.length, event, List.getElem?_concat_length, Function.update_self _ _ _, howner⟩
  body place found hfound hid := by
    rw [bodyAt_append, Function.update_self, bodyAt_update]
    rcases getElem?_append_singleton_cases hfound with ⟨hlt, hfound⟩ | ⟨rfl, rfl⟩
    · rw [run.body place found hfound hid, if_neg (Nat.ne_of_gt hlt), List.append_nil]
    · have hnone : bodyAt browser events home messages.length = [] := by
        refine bodyAt_eq_nil fun i earlier chunk hearlier hsome hhome => ?_
        obtain ⟨old, hold, -⟩ := run.chunk i earlier chunk hearlier hsome
        exact absurd (lt_of_getElem? hold) (hhome ▸ Nat.lt_irrefl _)
      rw [hnone, if_pos rfl, List.nil_append, hbody hid]
  later i found chunk k earlier hfound hsome hempty hearlier hmakes hlt := by
    have hk : k < events.length := by
      have hbound := lt_of_getElem? hfound
      rw [List.length_append, List.length_singleton] at hbound
      omega
    rw [List.getElem?_append_left hk] at hearlier
    rcases getElem?_append_singleton_cases hfound with ⟨hi, hfound⟩ | ⟨rfl, rfl⟩
    · rw [update_of_lt hk, update_of_lt hi]
      exact run.later i found chunk k earlier hfound hsome hempty hearlier hmakes hlt
    · obtain ⟨old, hold, -⟩ := run.produced k earlier hearlier hmakes
      rw [update_of_lt hk, Function.update_self]
      exact lt_of_getElem? hold
  origin found hmem := by
    rcases List.mem_append.1 hmem with hmem | hmem
    · exact (run.origin found hmem).mono event
    · exact List.mem_singleton.1 hmem ▸ horigin
  nodup := by
    rw [List.map_append, List.map_singleton]
    exact List.nodup_append.2 ⟨run.nodup, List.pairwise_singleton _ _, fun id hid last hlast heq =>
      hfresh (List.mem_singleton.1 hlast ▸ heq ▸ hid)⟩

theorem getElem?_extend (index : Nat) (text : Str) (place : Nat) :
    (extend messages index text)[place]? = (messages[place]?).map fun message =>
      if index = place then { message with body := message.body ++ text } else message := by
  rw [extend, List.getElem?_modify]
  rfl

theorem map_id_extend (index : Nat) (text : Str) :
    (extend messages index text).map TimelineMessage.id = messages.map TimelineMessage.id := by
  refine List.ext_getElem? fun place => ?_
  rw [List.getElem?_map, List.getElem?_map, getElem?_extend, Option.map_map]
  refine Option.map_congr fun message _ => ?_
  show (if index = place then _ else message).id = message.id
  split <;> rfl

/-- A message at one place reads the same after another one has grown, but for its body. -/
theorem getElem?_extend_of (index : Nat) (text : Str) {place : Nat} {message : TimelineMessage}
    (h : messages[place]? = some message) :
    ∃ grown, (extend messages index text)[place]? = some grown ∧ grown.id = message.id ∧
      grown.kind = message.kind ∧ (index ≠ place → grown = message) := by
  rw [getElem?_extend, h, Option.map_some]
  refine ⟨_, rfl, ?_, ?_, fun hne => if_neg hne⟩
  · split <;> rfl
  · split <;> rfl

/-- A chunk that is added to a message. -/
theorem Run.extend (run : Run browser resolutions events messages home)
    (hids : ∀ found ∈ events, IsUuidText found.eventId) {chunk : Chunk}
    (hchunk : chunkOf browser event = some chunk) (hproduces : ¬ Produces browser event)
    {index : Nat} {message : TimelineMessage} (hmessage : messages[index]? = some message)
    (hkind : message.kind = chunk.kind) (hid : IsChunkId message.id)
    (hwith : chunk.messageId ≠ [] → message.id = chunkId chunk.messageId chunk.kind)
    (hwithout : chunk.messageId = [] → index = messages.length - 1) :
    Run browser resolutions (events ++ [event]) (extend messages index chunk.text)
      (Function.update home events.length index) where
  chunk i found other hfound hsome := by
    rcases getElem?_append_singleton_cases hfound with ⟨hlt, hfound⟩ | ⟨rfl, rfl⟩
    · obtain ⟨old, hold, holdKind, holdId, holdWith⟩ := run.chunk i found other hfound hsome
      obtain ⟨grown, hgrown, hgrownId, hgrownKind, -⟩ :=
        getElem?_extend_of index chunk.text hold
      rw [update_of_lt hlt]
      exact ⟨grown, hgrown, hgrownKind.trans holdKind, hgrownId ▸ holdId, hgrownId ▸ holdWith⟩
    · obtain rfl := Option.some.inj (hsome.symm.trans hchunk)
      obtain ⟨grown, hgrown, hgrownId, hgrownKind, -⟩ :=
        getElem?_extend_of index other.text hmessage
      rw [Function.update_self]
      exact ⟨grown, hgrown, hgrownKind.trans hkind, hgrownId ▸ hid, hgrownId ▸ hwith⟩
  produced i found hfound hmakes := by
    rcases getElem?_append_singleton_cases hfound with ⟨hlt, hfound⟩ | ⟨rfl, rfl⟩
    · obtain ⟨old, hold, holdId, hread⟩ := run.produced i found hfound hmakes
      obtain ⟨grown, hgrown, -, -, hsame⟩ :=
        getElem?_extend_of index chunk.text hold
      have hne : index ≠ home i := by
        intro heq
        rw [← heq, hmessage] at hold
        cases hold
        rw [holdId] at hid
        exact not_isChunkId_of_isUuidText (hids found (List.mem_of_getElem? hfound)) hid
      rw [update_of_lt hlt]
      exact ⟨old, hsame hne ▸ hgrown, holdId, hread⟩
    · exact absurd hmakes hproduces
  owner place found hfound := by
    rw [getElem?_extend] at hfound
    obtain ⟨old, hold, -⟩ := Option.map_eq_some_iff.1 hfound
    obtain ⟨i, earlier, hearlier, hhome, hshown⟩ := run.owner place old hold
    have hlt := lt_of_getElem? hearlier
    refine ⟨i, earlier, ?_, ?_, hshown⟩
    · rw [List.getElem?_append_left hlt, hearlier]
    · rw [update_of_lt hlt, hhome]
  body place found hfound hfoundId := by
    rw [getElem?_extend] at hfound
    obtain ⟨old, hold, hgrown⟩ := Option.map_eq_some_iff.1 hfound
    rw [bodyAt_append, Function.update_self, bodyAt_update, hchunk]
    split at hgrown
    · rename_i hplace
      subst hgrown
      rw [if_pos hplace]
      show old.body ++ chunk.text = _
      rw [run.body place old hold hfoundId]
      rfl
    · rename_i hplace
      subst hgrown
      rw [if_neg hplace, List.append_nil]
      exact run.body place old hold hfoundId
  later i found other k earlier hfound hsome hempty hearlier hmakes hlt := by
    have hk : k < events.length := by
      have hbound := lt_of_getElem? hfound
      rw [List.length_append, List.length_singleton] at hbound
      omega
    rw [List.getElem?_append_left hk] at hearlier
    rw [update_of_lt hk]
    rcases getElem?_append_singleton_cases hfound with ⟨hi, hfound⟩ | ⟨rfl, rfl⟩
    · rw [update_of_lt hi]
      exact run.later i found other k earlier hfound hsome hempty hearlier hmakes hlt
    · obtain rfl := Option.some.inj (hsome.symm.trans hchunk)
      obtain ⟨old, hold, holdId, -⟩ := run.produced k earlier hearlier hmakes
      -- the last message is of chunks, so an event's own message is before it
      have hne : home k ≠ index := by
        intro heq
        rw [heq, hmessage] at hold
        cases hold
        rw [holdId] at hid
        exact not_isChunkId_of_isUuidText (hids earlier (List.mem_of_getElem? hearlier)) hid
      have hbound := lt_of_getElem? hold
      have hlast := hwithout hempty
      rw [Function.update_self]
      omega
  origin found hmem := by
    obtain ⟨place, hplace⟩ := List.mem_iff_getElem?.1 hmem
    rw [getElem?_extend] at hplace
    obtain ⟨old, hold, hgrown⟩ := Option.map_eq_some_iff.1 hplace
    have horigin := (run.origin old (List.mem_of_getElem? hold)).mono event
    split at hgrown
    · subst hgrown
      exact horigin
    · subst hgrown
      exact horigin
  nodup := by
    rw [map_id_extend]
    exact run.nodup

/-! ## Fresh ids -/

variable (events) in
/-- Event ids are texts of UUIDs, and no two are the same. -/
def UuidIds : Prop :=
  (∀ event ∈ events, IsUuidText event.eventId) ∧ (events.map LocalEvent.eventId).Nodup

theorem UuidIds.front {rest : List (LocalEvent ν)} (h : UuidIds (events ++ rest)) :
    UuidIds events :=
  ⟨fun found hmem => h.1 found (List.mem_append_left _ hmem), by
    have hnodup := h.2
    rw [List.map_append] at hnodup
    exact (List.nodup_append.1 hnodup).1⟩

theorem UuidIds.last (h : UuidIds (events ++ [event])) :
    IsUuidText event.eventId ∧ ∀ found ∈ events, found.eventId ≠ event.eventId := by
  refine ⟨h.1 event (List.mem_append_right _ List.mem_cons_self), fun found hmem => ?_⟩
  have hnodup := h.2
  rw [List.map_append] at hnodup
  exact (List.nodup_append.1 hnodup).2.2 _ (List.mem_map_of_mem hmem) _ List.mem_cons_self

/-- No message has the id of an event that comes after it. -/
theorem fresh_eventId (run : Run browser resolutions events messages home)
    (hids : UuidIds (events ++ [event])) :
    event.eventId ∉ messages.map TimelineMessage.id := by
  obtain ⟨huuid, hne⟩ := hids.last
  intro hmem
  obtain ⟨message, hmessage, heq⟩ := List.mem_map.1 hmem
  have hnot := not_isChunkId_of_isUuidText huuid
  rcases run.origin message hmessage with ⟨messageId, hid⟩ | ⟨found, hfound, hid | hid⟩
  · rw [← heq, hid] at hnot
    exact hnot (isChunkId_chunkId messageId message.kind)
  · rw [← heq, hid] at hnot
    exact hnot (isChunkId_autoId found.eventId)
  · exact hne found hfound (hid.symm.trans heq)

theorem fresh_autoId (run : Run browser resolutions events messages home)
    (hids : UuidIds (events ++ [event])) :
    autoId event.eventId ∉ messages.map TimelineMessage.id := by
  obtain ⟨huuid, hne⟩ := hids.last
  intro hmem
  obtain ⟨message, hmessage, heq⟩ := List.mem_map.1 hmem
  rcases run.origin message hmessage with ⟨messageId, hid⟩ | ⟨found, hfound, hid | hid⟩
  · exact chunkId_ne_autoId messageId message.kind huuid (hid.symm.trans heq)
  · exact hne found hfound (autoId_injective (hid.symm.trans heq))
  · have hnot := not_isChunkId_of_isUuidText (hids.front.1 found hfound)
    rw [← hid, heq] at hnot
    exact hnot (isChunkId_autoId event.eventId)

/-- A message with the id of a chunk has the chunk's kind. -/
theorem kind_of_chunkId (run : Run browser resolutions events messages home)
    (hids : ∀ event ∈ events, IsUuidText event.eventId) {message : TimelineMessage}
    (hmem : message ∈ messages) {messageId : Str} {kind : MessageKind}
    (h : message.id = chunkId messageId kind) : message.kind = kind := by
  rcases run.origin message hmem with ⟨found, hid⟩ | ⟨event, hevent, hid | hid⟩
  · exact (chunkId_injective (hid.symm.trans h)).2
  · exact absurd (h.symm.trans hid) (chunkId_ne_autoId messageId kind (hids event hevent))
  · have hnot := not_isChunkId_of_isUuidText (hids event hevent)
    rw [← hid, h] at hnot
    exact absurd (isChunkId_chunkId messageId kind) hnot

/-! ## The loop -/

/-- What a chunk does to the messages. -/
theorem Run.appendChunk (run : Run browser resolutions events messages home)
    (hids : UuidIds (events ++ [event])) {chunk : Chunk}
    (hchunk : chunkOf browser event = some chunk) (hproduces : ¬ Produces browser event)
    {after : List TimelineMessage} (h : appendChunk browser messages event chunk = .ok after) :
    ∃ place, Run browser resolutions (events ++ [event]) after
      (Function.update home events.length place) := by
  have huuids := hids.front.1
  have hpush {id : Str} (hfresh : id ∉ messages.map TimelineMessage.id)
      (horigin : (∃ messageId, id = chunkId messageId chunk.kind) ∨ id = autoId event.eventId)
      (hwith : chunk.messageId ≠ [] → id = chunkId chunk.messageId chunk.kind)
      (hpushed : pushChunk browser messages event id chunk = .ok after) :
      ∃ place, Run browser resolutions (events ++ [event]) after
        (Function.update home events.length place) := by
    obtain ⟨time, -, hpushed⟩ := bind_eq_ok.1 hpushed
    cases hpushed
    have hid : IsChunkId id := by
      rcases horigin with ⟨messageId, rfl⟩ | rfl
      · exact isChunkId_chunkId messageId chunk.kind
      · exact isChunkId_autoId event.eventId
    refine ⟨_, run.push hfresh ?_ ?_ (fun hmakes => absurd hmakes hproduces) (.inr ⟨chunk, hchunk⟩)
      fun _ => ?_⟩
    · rcases horigin with hmessageId | hauto
      · exact .inl hmessageId
      · exact .inr ⟨event, List.mem_append_right _ List.mem_cons_self, .inl hauto⟩
    · intro found hfound
      obtain rfl := Option.some.inj (hfound.symm.trans hchunk)
      exact ⟨rfl, hid, hwith⟩
    · rw [hchunk]
      rfl
  unfold Timeline.appendChunk at h
  split at h
  · rename_i hsome
    dsimp only at h
    split at h
    · rename_i existing hfound
      cases h
      obtain ⟨message, hmessage, hid⟩ : ∃ message, messages[existing]? = some message ∧
          message.id = chunkId chunk.messageId chunk.kind := by
        obtain ⟨hlt, hid, -⟩ := List.findIdx?_eq_some_iff_getElem.1 hfound
        exact ⟨_, List.getElem?_eq_getElem hlt, of_decide_eq_true hid⟩
      exact ⟨existing, run.extend huuids hchunk hproduces hmessage
        (kind_of_chunkId run huuids (List.mem_of_getElem? hmessage) hid)
        (hid ▸ isChunkId_chunkId _ _) (fun _ => hid) fun hempty => absurd hempty hsome⟩
    · rename_i hnone
      refine hpush (fun hmem => ?_) (.inl ⟨chunk.messageId, rfl⟩) (fun _ => rfl) h
      obtain ⟨message, hmessage, hid⟩ := List.mem_map.1 hmem
      exact of_decide_eq_false (List.findIdx?_eq_none_iff.1 hnone message hmessage) hid
  · rename_i hempty
    have hwith {id : Str} (hne : chunk.messageId ≠ []) :
        id = chunkId chunk.messageId chunk.kind := absurd hne hempty
    split at h
    · rename_i previous hlast
      split at h
      · rename_i hgrows
        cases h
        refine ⟨messages.length - 1, run.extend huuids hchunk hproduces ?_ hgrows.1 hgrows.2 hwith
          fun _ => rfl⟩
        rw [← List.getLast?_eq_getElem?]
        exact hlast
      · exact hpush (fresh_autoId run hids) (.inr rfl) hwith h
    · exact hpush (fresh_autoId run hids) (.inr rfl) hwith h

theorem Run.appendEvent (run : Run browser resolutions events messages home)
    (hids : UuidIds (events ++ [event])) {after : List TimelineMessage}
    (h : appendEvent browser resolutions messages event = .ok after) :
    ∃ home', Run browser resolutions (events ++ [event]) after home' := by
  obtain ⟨entry, hentry, h⟩ := bind_eq_ok.1 h
  rcases readEvent_cases hentry with ⟨message, rfl, hid, hmakes, hchunk⟩ |
    ⟨chunk, rfl, hchunk, -, hmakes⟩ | ⟨rfl, hchunk, hmakes⟩
  · cases h
    refine ⟨_, run.push (hid ▸ fresh_eventId run hids)
      (.inr ⟨event, List.mem_append_right _ List.mem_cons_self, .inr hid⟩) ?_
      (fun _ => ⟨hid, hentry⟩) (.inl hmakes) fun hchunkId => ?_⟩
    · intro chunk hsome
      rw [hchunk] at hsome
      cases hsome
    · rw [hid] at hchunkId
      exact absurd hchunkId (not_isChunkId_of_isUuidText hids.last.1)
  · obtain ⟨place, hrun⟩ := run.appendChunk hids hchunk hmakes h
    exact ⟨_, hrun⟩
  · cases h
    exact ⟨home, run.nothing hchunk hmakes⟩

theorem Run.foldlM {rest : List (LocalEvent ν)} {after : List TimelineMessage}
    (run : Run browser resolutions events messages home) (hids : UuidIds (events ++ rest))
    (h : rest.foldlM (Timeline.appendEvent browser resolutions) messages = .ok after) :
    ∃ home', Run browser resolutions (events ++ rest) after home' := by
  induction rest generalizing events messages home with
  | nil =>
    cases h
    rw [List.append_nil]
    exact ⟨home, run⟩
  | cons event rest ih =>
    have hcons : events ++ event :: rest = (events ++ [event]) ++ rest := by simp
    rw [hcons] at hids ⊢
    rw [List.foldlM_cons] at h
    obtain ⟨next, hnext, h⟩ := bind_eq_ok.1 h
    obtain ⟨home', run'⟩ := run.appendEvent hids.front hnext
    exact ih run' hids h

/-! ## Events that can be shown -/

/-- A value and what is in it. -/
inductive Part : Json ν → Json ν → Prop
  | whole (value : Json ν) : Part value value
  | field {fields : List (Str × Json ν)} {key : Str} {inner value : Json ν} :
      field fields key = some inner → Part inner value → Part (.object fields) value
  | item {items : List (Json ν)} {inner value : Json ν} :
      inner ∈ items → Part inner value → Part (.array items) value

variable (browser) in
/-- `String` returns for a value, if there is one, and for what is in it. -/
def HasText (value : Option (Json ν)) : Prop :=
  ∀ whole ∈ value, ∀ part, Part whole part → (part.text browser.numberText).isSome

variable (browser) in
/-- The browser can show the event: `String` and `formatTime` return for it. -/
structure Displayable (event : LocalEvent ν) : Prop where
  payload : ∀ key, HasText browser (field event.payload key)
  time : ∃ text, browser.formatTime event.occurredAtUnixMs = .ok text

theorem HasText.field {value : Option (Json ν)} (h : HasText browser value) (key : Str) :
    HasText browser (field (record value) key) := by
  intro inner hinner part hpart
  unfold record at hinner
  split at hinner
  · exact h _ rfl part (.field hinner hpart)
  · cases hinner

theorem HasText.item {value : Option (Json ν)} (h : HasText browser value) {inner : Json ν}
    (hinner : inner ∈ array value) : HasText browser (some inner) := by
  rintro _ ⟨⟩ part hpart
  unfold array at hinner
  split at hinner
  · exact h _ rfl part (.item hinner hpart)
  · cases hinner

theorem HasText.string (text : Str) : HasText browser (some (.string text)) := by
  rintro _ ⟨⟩ part hpart
  cases hpart
  rfl

theorem HasText.object {fields : List (Str × Json ν)}
    (hmethod : fields.lookup ("toString" : Str) = none)
    (h : ∀ key, HasText browser (Timeline.field fields key)) :
    HasText browser (some (.object fields)) := by
  rintro _ ⟨⟩ part hpart
  cases hpart with
  | whole =>
    rw [Json.text, hmethod]
    rfl
  | field hinner hpart => exact h _ _ hinner part hpart

theorem HasText.cons {name : Str} {value : Json ν} {fields : List (Str × Json ν)}
    (hvalue : HasText browser (some value))
    (h : ∀ key, HasText browser (Timeline.field fields key)) (key : Str) :
    HasText browser (Timeline.field ((name, value) :: fields) key) := by
  unfold Timeline.field
  rw [List.lookup_cons]
  split
  · exact hvalue
  · exact h key

theorem HasText.stringOr {value : Option (Json ν)} (h : HasText browser value)
    {otherwise : Except JsError Str} (hotherwise : ∃ text, otherwise = .ok text) :
    ∃ text, stringOr browser value otherwise = .ok text := by
  unfold Timeline.stringOr
  split
  · exact hotherwise
  · exact hotherwise
  · rename_i whole hne
    obtain ⟨text, htext⟩ := Option.isSome_iff_exists.1 (h whole rfl whole (.whole whole))
    rw [htext]
    exact ⟨text, rfl⟩

theorem permissionOption_ok {value : Json ν} (h : HasText browser (some value)) :
    ∃ option, permissionOption browser value = .ok option :=
  exists_bind_eq_ok ((h.field _).stringOr ⟨_, rfl⟩) fun _ =>
    exists_bind_eq_ok ((h.field _).stringOr ⟨_, rfl⟩) fun _ =>
      exists_bind_eq_ok ((h.field _).stringOr ⟨_, rfl⟩) fun _ => ⟨_, rfl⟩

theorem permissionOptions_ok {values : List (Json ν)}
    (h : ∀ value ∈ values, HasText browser (some value)) :
    ∃ options, values.mapM (permissionOption browser) = .ok options :=
  exists_mapM_eq_ok fun value hvalue => permissionOption_ok (h value hvalue)

theorem Displayable.readEvent (h : Displayable browser event) (resolutions : List (Str × Str)) :
    ∃ entry, readEvent browser resolutions event = .ok entry := by
  unfold Timeline.readEvent
  split
  · have hupdate := h.payload "update"
    unfold readUpdate
    refine exists_bind_eq_ok ((hupdate.field _).stringOr ⟨_, rfl⟩) fun kind => ?_
    split
    · refine exists_bind_eq_ok (((hupdate.field _).field _).stringOr ⟨_, rfl⟩) fun text => ?_
      split
      · exact ⟨_, rfl⟩
      · exact exists_bind_eq_ok ((hupdate.field _).stringOr ⟨_, rfl⟩) fun _ => ⟨_, rfl⟩
    · split
      · refine exists_bind_eq_ok ((hupdate.field _).stringOr ?_) fun _ => ?_
        · exact exists_bind_eq_ok ((hupdate.field _).stringOr ⟨_, rfl⟩) fun _ => ⟨_, rfl⟩
        · exact exists_bind_eq_ok ((hupdate.field _).stringOr ⟨_, rfl⟩) fun _ => ⟨_, rfl⟩
      · exact ⟨_, rfl⟩
  · unfold readMessage
    split
    · exact exists_bind_eq_ok ((h.payload _).stringOr ⟨_, rfl⟩) fun _ =>
        exists_bind_eq_ok h.time fun _ => ⟨_, rfl⟩
    · split
      · have hrequest := h.payload "request"
        refine exists_bind_eq_ok ((h.payload _).stringOr ⟨_, rfl⟩) fun _ => ?_
        refine exists_bind_eq_ok (((hrequest.field _).field _).stringOr ⟨_, rfl⟩) fun _ => ?_
        refine exists_bind_eq_ok h.time fun _ => ?_
        exact exists_bind_eq_ok (permissionOptions_ok fun value hvalue =>
          (hrequest.field _).item hvalue) fun _ => ⟨_, rfl⟩
      · split
        · exact exists_bind_eq_ok ((h.payload _).stringOr ⟨_, rfl⟩) fun _ =>
            exists_bind_eq_ok h.time fun _ => ⟨_, rfl⟩
        · split
          · exact exists_bind_eq_ok h.time fun _ => ⟨_, rfl⟩
          · exact ⟨_, rfl⟩

theorem Displayable.appendEvent (h : Displayable browser event) (resolutions : List (Str × Str))
    (messages : List TimelineMessage) :
    ∃ after, appendEvent browser resolutions messages event = .ok after := by
  have hpush (id : Str) (chunk : Chunk) :
      ∃ after, pushChunk browser messages event id chunk = .ok after :=
    exists_bind_eq_ok h.time fun _ => ⟨_, rfl⟩
  refine exists_bind_eq_ok (h.readEvent resolutions) fun entry => ?_
  cases entry with
  | message message => exact ⟨_, rfl⟩
  | nothing => exact ⟨_, rfl⟩
  | chunk chunk =>
    show ∃ after, appendChunk browser messages event chunk = .ok after
    unfold appendChunk
    split
    · dsimp only
      split
      · exact ⟨_, rfl⟩
      · exact hpush _ _
    · split
      · split
        · exact ⟨_, rfl⟩
        · exact hpush _ _
      · exact hpush _ _

theorem buildTimeline_ok (h : ∀ event ∈ events, Displayable browser event) :
    ∃ messages, buildTimeline browser events = .ok messages := by
  refine exists_bind_eq_ok (exists_foldlM_eq_ok (fun event hevent resolutions => ?_) [])
    fun resolutions => exists_foldlM_eq_ok
      (fun event hevent messages => (h event hevent).appendEvent resolutions messages) []
  have hpayload := (h event hevent).payload
  split
  · exact exists_bind_eq_ok ((hpayload _).stringOr ⟨_, rfl⟩) fun _ =>
      exists_bind_eq_ok ((hpayload _).stringOr ⟨_, rfl⟩) fun _ => ⟨_, rfl⟩
  · exact ⟨_, rfl⟩

/-! ## The timeline -/

variable (browser) in
/-- How the events and the messages belong together: `home` is the place of an event's message. -/
structure Attributed (events : List (LocalEvent ν)) (messages : List TimelineMessage)
    (home : Nat → Nat) : Prop where
  /-- A chunk is part of a message of its own kind. -/
  chunk : ∀ i event chunk, events[i]? = some event → chunkOf browser event = some chunk →
    ∃ message, messages[home i]? = some message ∧ message.kind = chunk.kind
  /-- A message of chunks has their texts, in order, and no other text. -/
  body : ∀ i event chunk message, events[i]? = some event → chunkOf browser event = some chunk →
    messages[home i]? = some message → message.body = bodyAt browser events home (home i)
  /-- Any other event that makes a message has its own. -/
  produced : ∀ i event, events[i]? = some event → Produces browser event →
    ∃ message resolutions, messages[home i]? = some message ∧
      readEvent browser resolutions event = .ok (.message message)
  /-- No message is of chunks and of another event. -/
  apart : ∀ i event chunk k other, events[i]? = some event → chunkOf browser event = some chunk →
    events[k]? = some other → Produces browser other → home i ≠ home k
  /-- There are no other messages. -/
  owner : ∀ place < messages.length, ∃ i event, events[i]? = some event ∧ home i = place ∧
    (Produces browser event ∨ ∃ chunk, chunkOf browser event = some chunk)
  /-- Chunks of one kind with the same message id are in one message. -/
  together : ∀ i event chunk k other chunk', events[i]? = some event →
    chunkOf browser event = some chunk → events[k]? = some other →
    chunkOf browser other = some chunk' → chunk.messageId ≠ [] →
    chunk.messageId = chunk'.messageId → chunk.kind = chunk'.kind → home i = home k
  /-- A chunk without a message id is behind the messages of all events before it. -/
  later : ∀ i event chunk k earlier, events[i]? = some event →
    chunkOf browser event = some chunk → chunk.messageId = [] → events[k]? = some earlier →
    Produces browser earlier → k < i → home k < home i

theorem Run.attributed (run : Run browser resolutions events messages home)
    (hids : ∀ event ∈ events, IsUuidText event.eventId) :
    Attributed browser events messages home where
  chunk i event chunk hevent hchunk := by
    obtain ⟨message, hmessage, hkind, -⟩ := run.chunk i event chunk hevent hchunk
    exact ⟨message, hmessage, hkind⟩
  body i event chunk message hevent hchunk hmessage := by
    obtain ⟨found, hfound, -, hid, -⟩ := run.chunk i event chunk hevent hchunk
    obtain rfl := Option.some.inj (hfound.symm.trans hmessage)
    exact run.body (home i) found hmessage hid
  produced i event hevent hmakes := by
    obtain ⟨message, hmessage, -, hread⟩ := run.produced i event hevent hmakes
    exact ⟨message, resolutions, hmessage, hread⟩
  apart i event chunk k other hevent hchunk hother hmakes heq := by
    obtain ⟨message, hmessage, -, hid, -⟩ := run.chunk i event chunk hevent hchunk
    obtain ⟨found, hfound, hfoundId, -⟩ := run.produced k other hother hmakes
    rw [heq, hfound] at hmessage
    cases hmessage
    rw [hfoundId] at hid
    exact not_isChunkId_of_isUuidText (hids other (List.mem_of_getElem? hother)) hid
  owner place hplace := run.owner place _ (List.getElem?_eq_getElem hplace)
  together i event chunk k other chunk' hevent hchunk hother hchunk' hne hid hkind := by
    obtain ⟨message, hmessage, -, -, hwith⟩ := run.chunk i event chunk hevent hchunk
    obtain ⟨found, hfound, -, -, hwith'⟩ := run.chunk k other chunk' hother hchunk'
    have hsame : message.id = found.id := by rw [hwith hne, hwith' (hid ▸ hne), hid, hkind]
    refine (List.getElem?_inj (lt_of_getElem? (by rw [List.getElem?_map, hmessage]; rfl))
      run.nodup).1 ?_
    rw [List.getElem?_map, List.getElem?_map, hmessage, hfound]
    exact congrArg some hsame
  later := run.later

/-- A browser that shows a time as its number. -/
def plainBrowser : Browser Empty := ⟨Empty.elim, fun time => .ok (toString time).toList⟩

/-- A part of an agent's answer without a message id. -/
def agentChunk (eventId : Str) (occurredAtUnixMs : Int) (text : Str) : LocalEvent Empty where
  eventId
  kind := "session_update"
  occurredAtUnixMs
  payload := [("update", .object [("sessionUpdate", .string "agent_message_chunk"),
    ("content", .object [("text", .string text)])])]

theorem agentChunk_displayable (eventId : Str) (occurredAtUnixMs : Int) (text : Str) :
    Displayable plainBrowser (agentChunk eventId occurredAtUnixMs text) where
  payload :=
    have hnone (key : Str) : HasText plainBrowser (field [] key) := nofun
    have hcontent := HasText.object rfl (.cons (.string text) hnone)
    .cons (.object rfl (.cons (.string _) (.cons hcontent hnone))) hnone
  time := ⟨_, rfl⟩

/-- Two parts of one answer. -/
def hello : List (LocalEvent Empty) :=
  [agentChunk "0198c5d0-6a3e-7c11-9f0e-5b2d8a4c7e10" 1 "Hel",
    agentChunk "0198c5d0-6a3e-7c11-9f0e-5b2d8a4c7e11" 2 "lo"]

end LeaveCli.Web.Timeline
