import LeaveCli.Crypto.SavedState
import Mathlib.Data.Finmap

/-!
# Saved session state survives a restart

Each part of the format is a `Reads` fact (`reads_header`, `reads_takeBytes`, `reads_takeCount`,
`reads_takeEntry`), and `reads_restoreParts` composes them along `restoreParts`: what it reads is
the state with its entries in sorted order. `sortedEntries_congr` says that this order does not
depend on the order the map is iterated in, and `toFinmap_ofEntries` that inserting the entries
again gives the map back.
-/

namespace LeaveCli.Crypto

open Lib LeaveProvider

/-! ## The parts of the format -/

theorem takeBytes_append {c v rest : Bytes} (h : takeBytes c = .ok (v, rest)) (t : Bytes) :
    takeBytes (c ++ t) = .ok (v, rest ++ t) := by
  obtain ⟨hlength, rfl⟩ := takeBytes_iff.1 h
  exact takeBytes_iff.2 ⟨hlength, List.append_assoc ..⟩

theorem takeCount_append {c rest : Bytes} {n : Nat} (h : takeCount c = .ok (n, rest)) (t : Bytes) :
    takeCount (c ++ t) = .ok (n, rest ++ t) := by
  unfold takeCount at h
  split at h
  · rename_i b₀ b₁ b₂ b₃ tail
    cases h
    rfl
  · cases h

theorem run_takeHeaderUnit (c : Bytes) :
    takeHeaderUnit.run c = (takeHeader c).map (Prod.mk ()) := rfl

theorem reads_header : Reader.Reads takeHeaderUnit (putHeader []) () := by
  apply Reader.Reads.of_extends
  · intro p w rest t hrun
    rw [run_takeHeaderUnit] at hrun ⊢
    cases hp : takeHeader p with
    | error e => simp [hp, Except.map] at hrun
    | ok rest' =>
      obtain rfl : rest' = rest := by simpa [hp, Except.map] using hrun
      rw [takeHeader_eq_ok.1 hp, List.append_assoc, takeHeader_putHeader]
      rfl
  · have hheader := takeHeader_putHeader []
    rw [List.append_nil] at hheader
    rw [run_takeHeaderUnit, hheader]
    rfl

theorem reads_takeBytes {v : Bytes} (hv : v.length < UInt32.size) :
    Reader.Reads takeBytes (putBytes [] v) v := by
  apply Reader.Reads.of_extends
  · intro p w rest t hrun
    exact takeBytes_append hrun t
  · have htake := takeBytes_putBytes hv []
    rwa [List.append_nil] at htake

theorem reads_takeCount {n : Nat} (hn : n < UInt32.size) :
    Reader.Reads takeCount (putCount [] n) n := by
  apply Reader.Reads.of_extends
  · intro p w rest t hrun
    exact takeCount_append hrun t
  · have hcount := fromBeBytes_toBeBytes (lengthWord n)
    show takeCount (putCount [] n) = .ok (n, [])
    simp only [putCount, toBeBytes, List.nil_append, takeCount, hcount, toNat_lengthWord hn]

/-! ## The entries -/

/-- The bytes of one entry. -/
def encodeEntry (entry : Σ _ : Bytes, Bytes) : Bytes := putBytes [] entry.1 ++ putBytes [] entry.2

def insertEntry (values : AList fun _ : Bytes => Bytes) (entry : Σ _ : Bytes, Bytes) :
    AList fun _ : Bytes => Bytes :=
  values.insert entry.1 entry.2

theorem reads_takeEntry {entry : Σ _ : Bytes, Bytes} (hkey : entry.1.length < UInt32.size)
    (hvalue : entry.2.length < UInt32.size) (values : AList fun _ : Bytes => Bytes) :
    Reader.Reads (takeEntry values) (encodeEntry entry) (insertEntry values entry) :=
  (reads_takeBytes hkey).bind ((reads_takeBytes hvalue).map (values.insert entry.1))

theorem foldl_putEntry (entries : List (Σ _ : Bytes, Bytes)) (buffer : Bytes) :
    entries.foldl putEntry buffer = buffer ++ entries.flatMap encodeEntry := by
  induction entries generalizing buffer with
  | nil => simp
  | cons entry entries ih =>
    have hentry : putEntry buffer entry = buffer ++ encodeEntry entry := by
      rw [putEntry, putBytes_eq, putBytes_eq buffer, encodeEntry, List.append_assoc]
    rw [List.foldl_cons, ih, hentry, List.flatMap_cons, List.append_assoc]

theorem sortedEntries_perm (values : AList fun _ : Bytes => Bytes) :
    (sortedEntries values).Perm values.entries :=
  List.mergeSort_perm _ _

/-- Two maps with the same entries are exported in the same order. -/
theorem sortedEntries_congr {values values' : AList fun _ : Bytes => Bytes}
    (h : values.toFinmap = values'.toFinmap) : sortedEntries values = sortedEntries values' := by
  have hsorted : ∀ v : AList fun _ : Bytes => Bytes,
      (sortedEntries v).Pairwise fun a b => decide (a.1 ≤ b.1) = true := by
    intro v
    apply List.pairwise_mergeSort
    · intro a b c hab hbc
      rw [decide_eq_true_eq] at hab hbc ⊢
      exact List.le_trans hab hbc
    · intro a b
      rw [Bool.or_eq_true, decide_eq_true_eq, decide_eq_true_eq]
      exact List.le_total a.1 b.1
  have hperm : (sortedEntries values).Perm (sortedEntries values') :=
    (sortedEntries_perm values).trans
      ((AList.toFinmap_eq.1 h).trans (sortedEntries_perm values').symm)
  refine List.Perm.eq_of_pairwise ?_ (hsorted values) (hsorted values') hperm
  intro a b ha hb hab hba
  rw [decide_eq_true_eq] at hab hba
  -- a map has one value for a key, so entries with equal keys are equal
  have hkeys : a.1 = b.1 := List.le_antisymm hab hba
  have ha' : a ∈ values.entries := (sortedEntries_perm values).mem_iff.1 ha
  have hb' : b ∈ values.entries :=
    (sortedEntries_perm values).mem_iff.1 (hperm.mem_iff.2 hb)
  exact values.nodupKeys.eq_of_fst_eq ha' hb' hkeys

/-- Inserting entries with new keys puts them in front. -/
theorem entries_foldl_insertEntry {entries : List (Σ _ : Bytes, Bytes)}
    {values : AList fun _ : Bytes => Bytes}
    (h : (entries ++ values.entries).NodupKeys) :
    (entries.foldl insertEntry values).entries = entries.reverse ++ values.entries := by
  induction entries generalizing values with
  | nil => rfl
  | cons entry entries ih =>
    have hperm : (entry :: entries ++ values.entries).Perm (entries ++ entry :: values.entries) :=
      List.perm_middle.symm
    have hnodup := (List.perm_nodupKeys hperm).1 h
    have hnew : entry.1 ∉ values := by
      intro hmem
      have hlate : entry.1 ∉ (entries ++ values.entries).keys :=
        List.notMem_keys_of_nodupKeys_cons h
      rw [List.keys, List.map_append, List.mem_append, not_or] at hlate
      exact hlate.2 (AList.mem_keys.1 hmem)
    have hentries : (insertEntry values entry).entries = entry :: values.entries :=
      AList.entries_insert_of_notMem hnew
    rw [List.foldl_cons, ih (by rwa [hentries]), hentries]
    simp

/-- The entries of a map, inserted in any order, are the map. -/
theorem toFinmap_ofEntries {entries : List (Σ _ : Bytes, Bytes)}
    {values : AList fun _ : Bytes => Bytes} (h : entries.Perm values.entries) :
    (entries.foldl insertEntry ∅).toFinmap = values.toFinmap := by
  apply AList.toFinmap_eq.2
  have hnodup : (entries ++ (∅ : AList fun _ : Bytes => Bytes).entries).NodupKeys := by
    rw [AList.empty_entries, List.append_nil]
    exact (List.perm_nodupKeys h).2 values.nodupKeys
  rw [entries_foldl_insertEntry hnodup, AList.empty_entries, List.append_nil]
  exact (List.reverse_perm entries).trans h

/-! ## The whole state -/

/-- The three fields and every key and value are shorter than 2^32 bytes, and there are fewer than
2^32 entries. -/
structure SavedSession.Fits (session : SavedSession) : Prop where
  deviceId : session.deviceId.utf8.length < UInt32.size
  groupId : session.groupId.length < UInt32.size
  signaturePublicKey : session.signaturePublicKey.length < UInt32.size
  count : session.provider.storage.values.entries.length < UInt32.size
  entry : ∀ entry ∈ session.provider.storage.values.entries,
    entry.1.length < UInt32.size ∧ entry.2.length < UInt32.size

/-- The same three fields and the same map. -/
structure SavedSession.Same (session session' : SavedSession) : Prop where
  deviceId : session.deviceId = session'.deviceId
  groupId : session.groupId = session'.groupId
  signaturePublicKey : session.signaturePublicKey = session'.signaturePublicKey
  values : session.provider.storage.values.toFinmap = session'.provider.storage.values.toFinmap

namespace SavedSession

/-- The provider `restore` builds from the entries of a map. -/
def reloaded (values : AList fun _ : Bytes => Bytes) : LeaveProvider :=
  ⟨false, (sortedEntries values).foldl insertEntry ∅⟩

/-- The bytes of a map: the count, then the entries in sorted order. -/
def encodeValues (values : AList fun _ : Bytes => Bytes) : Bytes :=
  putCount [] values.entries.length ++ (sortedEntries values).flatMap encodeEntry

theorem reads_restore {values : AList fun _ : Bytes => Bytes}
    (hcount : values.entries.length < UInt32.size)
    (hentry : ∀ entry ∈ values.entries,
      entry.1.length < UInt32.size ∧ entry.2.length < UInt32.size) :
    Reader.Reads LeaveProvider.restore (encodeValues values) (reloaded values) := by
  have hitems : ∀ entry ∈ sortedEntries values, ∀ s,
      Reader.Reads (takeEntry s) (encodeEntry entry) (insertEntry s entry) := by
    intro entry hmem s
    obtain ⟨hkey, hvalue⟩ := hentry entry ((sortedEntries_perm values).mem_iff.1 hmem)
    exact reads_takeEntry hkey hvalue s
  have hloop := Reader.Reads.times hitems ∅
  rw [(sortedEntries_perm values).length_eq] at hloop
  refine Reader.Reads.bind (reads_takeCount hcount) ?_
  exact Reader.Reads.map hloop _

/-- `restoreParts` reads the fields, then the map. -/
theorem reads_restoreParts {session : SavedSession} (hfits : session.Fits) :
    Reader.Reads restoreParts
      (putHeader [] ++ (putBytes [] session.deviceId.utf8 ++ (putBytes [] session.groupId ++
        (putBytes [] session.signaturePublicKey ++
          encodeValues session.provider.storage.values))))
      { session with provider := reloaded session.provider.storage.values } := by
  refine Reader.Reads.bind reads_header (Reader.Reads.bind (reads_takeBytes hfits.deviceId) ?_)
  simp only [Str.fromUtf8_utf8, Option.elim_some, pure_bind]
  refine Reader.Reads.bind (reads_takeBytes hfits.groupId) ?_
  refine Reader.Reads.bind (reads_takeBytes hfits.signaturePublicKey) ?_
  exact Reader.Reads.map (reads_restore hfits.count hfits.entry) _

theorem exportState_eq_ok {session : SavedSession} {bytes : Bytes} :
    session.exportState = .ok bytes ↔ session.provider.storage.poisoned = false ∧
      bytes = putHeader [] ++ (putBytes [] session.deviceId.utf8 ++ (putBytes [] session.groupId ++
        (putBytes [] session.signaturePublicKey ++
          encodeValues session.provider.storage.values))) := by
  have hbuffer : ∀ buffer, (sortedEntries session.provider.storage.values).foldl putEntry
      (putCount buffer session.provider.storage.values.entries.length) =
        buffer ++ encodeValues session.provider.storage.values := by
    intro buffer
    rw [foldl_putEntry, encodeValues, putCount, putCount, List.nil_append, List.append_assoc]
  unfold exportState LeaveProvider.export_
  cases session.provider.storage.poisoned with
  | true => simp
  | false =>
    simp only [Bool.false_eq_true, if_false, hbuffer, Except.ok.injEq, true_and]
    rw [putBytes_eq _ session.signaturePublicKey, putBytes_eq _ session.groupId,
      putBytes_eq _ session.deviceId.utf8]
    simp only [List.append_assoc]
    exact eq_comm

/-- Saved state gives the session's parts back, is the same whatever order the map is iterated in,
and is refused wherever it is cut off. -/
theorem saved_state_round_trip {session : SavedSession} (hfits : session.Fits) {bytes : Bytes}
    (hbytes : session.exportState = .ok bytes) :
    (∃ restored, restoreParts.run bytes = .ok (restored, []) ∧ restored.Same session) ∧
      (∀ session' : SavedSession, session'.Same session →
        ∀ bytes', session'.exportState = .ok bytes' → bytes' = bytes) ∧
      ∀ p, p <+: bytes → p ≠ bytes → ∃ e, restoreParts.run p = .error e := by
  have hreads := reads_restoreParts hfits
  rw [← (exportState_eq_ok.1 hbytes).2] at hreads
  refine ⟨?_, ?_, hreads.refuses⟩
  · have hrun := hreads.accepts []
    rw [List.append_nil] at hrun
    exact ⟨_, hrun, rfl, rfl, rfl, toFinmap_ofEntries (sortedEntries_perm _)⟩
  · intro session' hsame bytes' hbytes'
    have hentries := sortedEntries_congr hsame.values
    have hlength := (AList.toFinmap_eq.1 hsame.values).length_eq
    rw [(exportState_eq_ok.1 hbytes).2, (exportState_eq_ok.1 hbytes').2, encodeValues, encodeValues,
      hsame.deviceId, hsame.groupId, hsame.signaturePublicKey, hentries, hlength]

/-- A laptop's session, its two entries not in the order of their keys. -/
def laptop : SavedSession where
  deviceId := "laptop"
  groupId := [7]
  signaturePublicKey := [1, 2, 3]
  provider := ⟨false, ⟨[⟨[9], [4]⟩, ⟨[8, 0], []⟩], by simp [List.nodupKeys_cons, List.keys]⟩⟩

theorem saved_state_round_trip_laptop : ∃ bytes, laptop.exportState = .ok bytes ∧
    (∃ restored, restoreParts.run bytes = .ok (restored, []) ∧ restored.Same laptop) ∧
    (∀ session' : SavedSession, session'.Same laptop →
      ∀ bytes', session'.exportState = .ok bytes' → bytes' = bytes) ∧
    ∀ p, p <+: bytes → p ≠ bytes → ∃ e, restoreParts.run p = .error e := by
  have hid : laptop.deviceId.utf8.length = laptop.deviceId.length :=
    Str.length_utf8_of_ascii (by decide)
  have hfits : laptop.Fits := ⟨hid ▸ by decide, by decide, by decide, by decide, by decide⟩
  exact ⟨_, rfl, saved_state_round_trip hfits rfl⟩

end SavedSession

end LeaveCli.Crypto
