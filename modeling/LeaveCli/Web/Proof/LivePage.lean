import LeaveCli.Web.Proof.SessionView
import LeaveCli.Lib.Merge

/-!
# Live events in any order

`appendLiveEvent` merges an event into the events of the page: the event id is the key and the
sequence is the rank (`events_merged`). What a list of events is merged into is therefore decided by
the set of events, for whatever order they arrive in and however often, as long as event ids and
sequences determine each other (`Consistent`). Nothing of an event but these two is read, so the
same holds of the pairs alone (`pairs_merged`), where two events with one id may differ otherwise.
-/

namespace LeaveCli.Web

open Lib LeaveCli.Core LeaveCli.Host

/-! ## Pages -/

def pageEvents (page : Option EventPage) : List LocalEvent := page.elim [] EventPage.events

/-- Live events are put into a page, one after the other. -/
def merged (page : Option EventPage) (events : List LocalEvent) : Option EventPage :=
  events.foldl (fun page event => some (appendLiveEvent page event)) page

/-- A page in the order of the sequences, each event once, up to its cursor. -/
structure Ordered (page : EventPage) : Prop where
  sequences : Log.Increasing LocalEvent.sequence page.events
  eventIds : (page.events.map LocalEvent.eventId).Nodup
  cursor : ∀ event ∈ page.events, event.sequence ≤ page.nextCursor

/-- What `appendLiveEvent` reads of an event. -/
def pair (event : LocalEvent) : Uuid × Int := (event.eventId, event.sequence)

/-- Event ids and sequences determine each other. -/
def Consistent (events : List LocalEvent) : Prop :=
  ∀ a ∈ events, ∀ b ∈ events, a.eventId = b.eventId ↔ a.sequence = b.sequence

instance (events : List LocalEvent) : Decidable (Consistent events) :=
  inferInstanceAs (Decidable (∀ a ∈ events, ∀ b ∈ events, _))

section Pages

variable {page : Option EventPage} {event : LocalEvent} {events events' : List LocalEvent}

theorem events_appendLiveEvent : (appendLiveEvent page event).events =
    mergeIn LocalEvent.eventId LocalEvent.sequence (pageEvents page) event := by
  cases page with
  | none => rfl
  | some page =>
    show (appendLiveEvent (some page) event).events = mergeIn _ _ page.events event
    rw [appendLiveEvent, Option.elim_some, mergeIn]
    split
    · rfl
    · rfl

theorem pairs_appendLiveEvent : (appendLiveEvent page event).events.map pair =
    mergeIn Prod.fst Prod.snd ((pageEvents page).map pair) (pair event) := by
  rw [events_appendLiveEvent]
  exact map_mergeIn pair (fun _ => rfl) (fun _ => rfl)

theorem events_merged : pageEvents (merged page events) =
    mergeAll LocalEvent.eventId LocalEvent.sequence (pageEvents page) events := by
  induction events generalizing page with
  | nil => rfl
  | cons event events ih =>
    show pageEvents (merged (some (appendLiveEvent page event)) events) = _
    rw [ih]
    show mergeAll _ _ (appendLiveEvent page event).events events = _
    rw [events_appendLiveEvent]
    rfl

theorem pairs_merged : (pageEvents (merged page events)).map pair =
    mergeAll Prod.fst Prod.snd ((pageEvents page).map pair) (events.map pair) := by
  rw [events_merged]
  exact map_mergeAll pair (fun _ => rfl) (fun _ => rfl)

/-- Events are consistent when each half of their pairs names the pair. -/
theorem consistent_iff : Consistent events ↔ Identified Prod.fst Prod.snd (events.map pair) := by
  constructor
  · intro h
    constructor
    · intro p hp q hq hfst
      obtain ⟨a, ha, rfl⟩ := List.mem_map.1 hp
      obtain ⟨b, hb, rfl⟩ := List.mem_map.1 hq
      exact Prod.ext hfst ((h a ha b hb).1 hfst)
    · intro p hp q hq hsnd
      obtain ⟨a, ha, rfl⟩ := List.mem_map.1 hp
      obtain ⟨b, hb, rfl⟩ := List.mem_map.1 hq
      exact Prod.ext ((h a ha b hb).2 hsnd) hsnd
  · intro h a ha b hb
    have hpa : pair a ∈ events.map pair := List.mem_map_of_mem ha
    have hpb : pair b ∈ events.map pair := List.mem_map_of_mem hb
    constructor
    · intro hid
      exact congrArg Prod.snd (h.ofKey _ hpa _ hpb hid)
    · intro hsequence
      exact congrArg Prod.fst (h.ofRank _ hpa _ hpb hsequence)

theorem increasing_pairs : Log.Increasing Prod.snd (events.map pair) ↔
    Log.Increasing LocalEvent.sequence events := by
  rw [Log.Increasing, List.pairwise_map]
  rfl

/-! ## One live event -/

theorem Consistent.first (h : Consistent (pageEvents page ++ event :: events)) :
    Identified Prod.fst Prod.snd (pair event :: (pageEvents page).map pair) := by
  apply (consistent_iff.1 h).mono
  intro p hp
  rw [List.map_append, List.map_cons, List.mem_append, List.mem_cons]
  rcases List.mem_cons.1 hp with rfl | hp
  · exact .inr (.inl rfl)
  · exact .inl hp

theorem Consistent.appendLiveEvent (h : Consistent (pageEvents page ++ event :: events)) :
    Consistent (pageEvents (some (Web.appendLiveEvent page event)) ++ events) := by
  show Consistent ((Web.appendLiveEvent page event).events ++ events)
  rw [consistent_iff, List.map_append, pairs_appendLiveEvent]
  rw [consistent_iff, List.map_append, List.map_cons] at h
  exact h.mergeIn

theorem nextCursor_appendLiveEvent_eq (hpage : ∀ p ∈ page, Ordered p)
    (h : Consistent (pageEvents page ++ event :: events)) :
    (Web.appendLiveEvent page event).nextCursor =
      page.elim event.sequence fun page => max page.nextCursor event.sequence := by
  cases page with
  | none => rfl
  | some page =>
    rw [Web.appendLiveEvent, Option.elim_some, Option.elim_some]
    split
    · rename_i hknown
      obtain ⟨existing, hexisting, hid⟩ := List.any_eq_true.1 hknown
      have hsequence : existing.sequence = event.sequence :=
        (h existing (List.mem_append_left _ hexisting) event (by simp)).1 (of_decide_eq_true hid)
      have hle := (hpage page rfl).cursor existing hexisting
      rw [hsequence] at hle
      exact (max_eq_left hle).symm
    · rfl

theorem eventIds_of_increasing (h : Consistent events)
    (hincreasing : Log.Increasing LocalEvent.sequence events) :
    (events.map LocalEvent.eventId).Nodup := by
  rw [List.Nodup, List.pairwise_map]
  apply hincreasing.imp_of_mem
  intro a b ha hb hlt hid
  have hsequence := (h a ha b hb).1 hid
  omega

theorem increasing_pageEvents (hpage : ∀ p ∈ page, Ordered p) :
    Log.Increasing LocalEvent.sequence (pageEvents page) := by
  cases page with
  | none => exact .nil
  | some page => exact (hpage page rfl).sequences

theorem ordered_appendLiveEvent (hpage : ∀ p ∈ page, Ordered p)
    (h : Consistent (pageEvents page ++ event :: events)) :
    Ordered (Web.appendLiveEvent page event) := by
  have hsequences : Log.Increasing LocalEvent.sequence (Web.appendLiveEvent page event).events := by
    rw [← increasing_pairs, pairs_appendLiveEvent]
    exact increasing_mergeIn h.first (increasing_pairs.2 (increasing_pageEvents hpage))
  refine ⟨hsequences, ?_, ?_⟩
  · apply eventIds_of_increasing _ hsequences
    intro a ha b hb
    exact h.appendLiveEvent a (List.mem_append_left _ ha) b (List.mem_append_left _ hb)
  · intro other hother
    rw [nextCursor_appendLiveEvent_eq hpage h]
    have hpair : pair other ∈ (Web.appendLiveEvent page event).events.map pair :=
      List.mem_map_of_mem hother
    rw [pairs_appendLiveEvent, mem_mergeIn h.first] at hpair
    cases page with
    | none =>
      rcases hpair with hnew | hold
      · exact (congrArg Prod.snd hnew).le
      · cases hold
    | some page =>
      rw [Option.elim_some]
      rcases hpair with hnew | hold
      · exact (congrArg Prod.snd hnew).le.trans (le_max_right _ _)
      · obtain ⟨existing, hexisting, heq⟩ := List.mem_map.1 hold
        have hsequence : existing.sequence = other.sequence := congrArg Prod.snd heq
        have hle := (hpage page rfl).cursor existing hexisting
        rw [hsequence] at hle
        exact hle.trans (le_max_left _ _)

/-! ## A list of live events -/

theorem ordered_merged (hpage : ∀ p ∈ page, Ordered p)
    (h : Consistent (pageEvents page ++ events)) :
    ∀ result ∈ merged page events, Ordered result := by
  induction events generalizing page with
  | nil => exact hpage
  | cons event events ih =>
    apply ih _ h.appendLiveEvent
    intro result hresult
    cases hresult
    exact ordered_appendLiveEvent hpage h

/-- From a page, the cursor is raised to every sequence. -/
theorem nextCursor_merged_some {page : EventPage} (hpage : Ordered page)
    (h : Consistent (pageEvents (some page) ++ events)) :
    (merged (some page) events).map EventPage.nextCursor =
      some ((events.map LocalEvent.sequence).foldl max page.nextCursor) := by
  induction events generalizing page with
  | nil => rfl
  | cons event events ih =>
    have hsome : ∀ p ∈ some page, Ordered p := fun p hp => Option.some.inj hp ▸ hpage
    show (merged (some (Web.appendLiveEvent (some page) event)) events).map _ = _
    rw [ih (ordered_appendLiveEvent hsome h) h.appendLiveEvent,
      nextCursor_appendLiveEvent_eq hsome h]
    rfl

theorem nextCursor_merged (hpage : ∀ p ∈ page, Ordered p)
    (h : Consistent (pageEvents page ++ events)) :
    (merged page events).map EventPage.nextCursor =
      ((page.map EventPage.nextCursor).toList ++ events.map LocalEvent.sequence).max? := by
  cases page with
  | some page =>
    rw [nextCursor_merged_some (hpage page rfl) h]
    show _ = (page.nextCursor :: events.map LocalEvent.sequence).max?
    rw [List.max?_cons']
  | none =>
    cases events with
    | nil => rfl
    | cons event events =>
      show (merged (some (Web.appendLiveEvent none event)) events).map _ =
        (event.sequence :: events.map LocalEvent.sequence).max?
      rw [nextCursor_merged_some (ordered_appendLiveEvent hpage h) h.appendLiveEvent,
        List.max?_cons']
      rfl

theorem mem_pairs_merged (h : Consistent (pageEvents page ++ events)) (p : Uuid × Int) :
    p ∈ (pageEvents (merged page events)).map pair ↔ p ∈ (pageEvents page ++ events).map pair := by
  rw [consistent_iff, List.map_append] at h
  rw [pairs_merged, mem_mergeAll h, List.map_append, List.mem_append]

/-! ## Another order -/

theorem Consistent.perm (h : Consistent (pageEvents page ++ events))
    (hperm : events.Perm events') : Consistent (pageEvents page ++ events') := by
  have hmem : ∀ event ∈ pageEvents page ++ events', event ∈ pageEvents page ++ events :=
    fun event hevent => (hperm.append_left (pageEvents page)).mem_iff.2 hevent
  exact fun a ha b hb => h a (hmem a ha) b (hmem b hb)

theorem max?_perm {xs ys : List Int} (h : xs.Perm ys) : xs.max? = ys.max? := by
  cases hmax : ys.max? with
  | none =>
    rw [List.max?_eq_none_iff] at hmax
    subst hmax
    rw [h.eq_nil]
    rfl
  | some greatest =>
    obtain ⟨hmem, hle⟩ := List.max?_eq_some_iff.1 hmax
    exact List.max?_eq_some_iff.2 ⟨h.mem_iff.2 hmem, fun b hb => hle b (h.mem_iff.1 hb)⟩

theorem nextCursor_merged_perm (hpage : ∀ p ∈ page, Ordered p)
    (h : Consistent (pageEvents page ++ events)) (hperm : events.Perm events') :
    (merged page events).map EventPage.nextCursor =
      (merged page events').map EventPage.nextCursor := by
  rw [nextCursor_merged hpage h, nextCursor_merged hpage (h.perm hperm)]
  exact max?_perm ((hperm.map LocalEvent.sequence).append_left _)

/-- Pages agree in `f` and their cursor when they do where there is a page. -/
theorem map_eq_of_nextCursor {β : Type} {left right : Option EventPage} (f : List LocalEvent → β)
    (hevents : f (pageEvents left) = f (pageEvents right))
    (hcursor : left.map EventPage.nextCursor = right.map EventPage.nextCursor) :
    left.map (fun page => (f page.events, page.nextCursor)) =
      right.map fun page => (f page.events, page.nextCursor) := by
  cases left with
  | none =>
    cases right with
    | none => rfl
    | some right => cases hcursor
  | some left =>
    cases right with
    | none => cases hcursor
    | some right => exact congrArg some (Prod.ext hevents (Option.some.inj hcursor))

/-- The pairs and the cursor of a page. -/
def shown (page : EventPage) : List (Uuid × Int) × Int := (page.events.map pair, page.nextCursor)

theorem shown_merged_perm (hpage : ∀ p ∈ page, Ordered p)
    (h : Consistent (pageEvents page ++ events)) (hperm : events.Perm events') :
    (merged page events).map shown = (merged page events').map shown := by
  apply map_eq_of_nextCursor (List.map pair) _ (nextCursor_merged_perm hpage h hperm)
  rw [pairs_merged, pairs_merged]
  rw [consistent_iff, List.map_append] at h
  apply mergeAll_congr h (increasing_pairs.2 (increasing_pageEvents hpage))
  intro p
  exact (hperm.map pair).mem_iff

/-- Consistent events of which an id names one. -/
theorem Consistent.identified (h : Consistent events)
    (hsame : ∀ a ∈ events, ∀ b ∈ events, a.eventId = b.eventId → a = b) :
    Identified LocalEvent.eventId LocalEvent.sequence events :=
  ⟨hsame, fun a ha b hb hsequence => hsame a ha b hb ((h a ha b hb).2 hsequence)⟩

theorem merged_perm (hpage : ∀ p ∈ page, Ordered p)
    (h : Consistent (pageEvents page ++ events)) (hperm : events.Perm events')
    (hidentified : Identified LocalEvent.eventId LocalEvent.sequence (pageEvents page ++ events)) :
    merged page events = merged page events' := by
  have hparts : Function.Injective fun page : EventPage => (page.events, page.nextCursor) := by
    intro left right heq
    cases left
    cases right
    cases heq
    rfl
  apply Option.map_injective hparts
  apply map_eq_of_nextCursor (fun events => events) _ (nextCursor_merged_perm hpage h hperm)
  rw [events_merged, events_merged]
  apply mergeAll_congr hidentified (increasing_pageEvents hpage)
  intro event
  exact hperm.mem_iff

end Pages

/-- Live events make the same page in every order. The page has each pair of the old page and of the
events once, by sequence, and its cursor is the greatest of the old one and the sequences; events
that their ids name make the same page as events too. -/
theorem appendLiveEvent_perm (page : Option EventPage) (events events' : List LocalEvent)
    (hpage : ∀ p ∈ page, Ordered p) (hconsistent : Consistent (pageEvents page ++ events))
    (hperm : events.Perm events') :
    (merged page events).map shown = (merged page events').map shown ∧
      (∀ result ∈ merged page events, Ordered result) ∧
      (∀ p, p ∈ (pageEvents (merged page events)).map pair ↔
        p ∈ (pageEvents page ++ events).map pair) ∧
      (merged page events).map EventPage.nextCursor =
        ((page.map EventPage.nextCursor).toList ++ events.map LocalEvent.sequence).max? ∧
      ((∀ a ∈ pageEvents page ++ events, ∀ b ∈ pageEvents page ++ events,
          a.eventId = b.eventId → a = b) →
        merged page events = merged page events' ∧
          ∀ event, event ∈ pageEvents (merged page events) ↔
            event ∈ pageEvents page ∨ event ∈ events) := by
  refine ⟨shown_merged_perm hpage hconsistent hperm, ordered_merged hpage hconsistent,
    mem_pairs_merged hconsistent, nextCursor_merged hpage hconsistent, ?_⟩
  intro hsame
  have hidentified := hconsistent.identified hsame
  refine ⟨merged_perm hpage hconsistent hperm hidentified, ?_⟩
  intro event
  rw [events_merged, mem_mergeAll hidentified]

/-- An event of session `one`. -/
def liveEvent (sequence : Int) : LocalEvent :=
  ⟨sequence, sequence.toNat + 10, 0, some "one", "session_update", sequence, []⟩

def livePage : EventPage := ⟨[liveEvent 1, liveEvent 3], 4⟩

theorem appendLiveEvent_perm_livePage :
    merged (some livePage) [liveEvent 5, liveEvent 3, liveEvent 2, liveEvent 5] =
      merged (some livePage) [liveEvent 2, liveEvent 5, liveEvent 5, liveEvent 3] := by
  have hpage : ∀ p ∈ some livePage, Ordered p := by
    intro p hp
    cases hp
    exact ⟨show List.Pairwise _ _ by decide, by decide, by decide⟩
  exact ((appendLiveEvent_perm (some livePage)
    [liveEvent 5, liveEvent 3, liveEvent 2, liveEvent 5]
    [liveEvent 2, liveEvent 5, liveEvent 5, liveEvent 3] hpage (by decide)
    (by decide)).2.2.2.2 (by decide)).1

/-! ## The screen -/

namespace SessionView

variable {sessionId : Str}

/-- Events of one host are consistent, and named by their ids. -/
theorem identified_of_log {server : EventServer} (hvalid : server.store.Valid)
    {events : List LocalEvent} (hlog : ∀ event ∈ events, event ∈ sessionLog sessionId server) :
    Identified LocalEvent.eventId LocalEvent.sequence events := by
  constructor
  · intro a ha b hb hid
    exact List.inj_on_of_nodup_map (eventIds_nodup hvalid) (hlog a ha) (hlog b hb) hid
  · intro a ha b hb hsequence
    exact (log_increasing hvalid).eq_of_key_eq (hlog a ha) (hlog b hb) hsequence

theorem consistent_of_identified {events : List LocalEvent}
    (h : Identified LocalEvent.eventId LocalEvent.sequence events) : Consistent events := by
  intro a ha b hb
  constructor
  · intro hid
    rw [h.ofKey a ha b hb hid]
  · intro hsequence
    rw [h.ofRank a ha b hb hsequence]

end SessionView

end LeaveCli.Web
