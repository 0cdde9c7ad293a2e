import Cosmosh.Sftp.ListingRoundTrip

/-! # Listings of entries with unusual attributes

A server may leave any attribute out.
-/

namespace Sftp

open Library Library.JsText

/-- `Date` can write the instant. -/
def IsDate (seconds : Option Nat) : Prop := ∃ value, seconds = some value ∧ value * 1000 ≤ MAX_TIME_VALUE

def HasTimestamps (attrs : Stats) : Prop := IsDate attrs.mtime ∧ IsDate attrs.atime

/-- A server that answers: the directory resolves and is read, and no request about a link ends with the transport. -/
structure AnsweringServer (σ : Type) where
  answer : σ → (q : Request) → Except SftpError q.Answer × σ
  resolvedPath : Text
  entries : List SftpDirectoryEntry
  resolvedPath_ne_nil : resolvedPath ≠ []
  sessionOpen_answer : ∀ s, (answer s .sessionOpen).1 = .ok true
  realpath_answer : ∀ s path, (answer s (.realpath path)).1 = .ok resolvedPath
  readdir_answer : ∀ s path, (answer s (.readdir path)).1 = .ok entries
  readlink_error : ∀ s path e, (answer s (.readlink path)).1 = .error e →
    e.isSftpOperationFailure = false ∧ e.isSftpTransportFailure = false
  stat_error : ∀ s path e, (answer s (.stat path)).1 = .error e →
    e.isSftpOperationFailure = false ∧ e.isSftpTransportFailure = false

structure Describes (resolvedPath : Text) (d : SftpDirectoryEntry) (entry : SftpEntry) : Prop where
  name : entry.name = d.filename
  path : entry.path = joinSftpPath resolvedPath d.filename
  type : entry.type = resolveSftpEntryType d.attrs.mode
  size : entry.size = d.attrs.size
  mode : entry.mode = d.attrs.mode
  owner : entry.uid = d.attrs.uid ∧ entry.gid = d.attrs.gid
  times : d.attrs.mtime.map (· * 1000) = some entry.modifiedAt ∧ d.attrs.atime.map (· * 1000) = some entry.accessedAt

def LosslessListing {σ : Type} (server : AnsweringServer σ) (outcome : Except SftpError (SftpResult SftpDirectoryListing)) : Prop :=
  ∃ listing entries, outcome = .ok (.success listing) ∧ listing.path = server.resolvedPath ∧ listing.entries.Perm entries ∧
    List.Forall₂ (Describes server.resolvedPath) (server.entries.filter fun d => !isSpecialName d.filename) entries

theorem formatStatsTimestamp_eq_ok_iff {seconds : Option Nat} {instant : Nat} :
    formatStatsTimestamp seconds = .ok instant ↔ IsDate seconds ∧ seconds.map (· * 1000) = some instant := by
  cases seconds with
  | none => exact iff_of_false nofun fun h => nomatch h.2
  | some value =>
    rw [formatStatsTimestamp, Option.map_some]
    constructor
    · intro h
      split at h
      · next hRange =>
        cases h
        exact ⟨⟨value, rfl, hRange⟩, rfl⟩
      · cases h
    · rintro ⟨⟨_, ⟨⟩, hRange⟩, hInstant⟩
      rw [if_pos hRange, Option.some.inj hInstant]

theorem isDate_iff {seconds : Option Nat} : IsDate seconds ↔ ∃ instant, formatStatsTimestamp seconds = .ok instant := by
  constructor
  · rintro ⟨value, rfl, hRange⟩
    exact ⟨value * 1000, if_pos hRange⟩
  · rintro ⟨instant, h⟩
    exact (formatStatsTimestamp_eq_ok_iff.mp h).1

theorem buildSftpEntry_eq_ok {name path : Text} {stats : Stats} {longname : Option Text} {symlinkTarget : Option SftpSymlinkTarget}
    {entry : SftpEntry} (h : buildSftpEntry name path stats longname symlinkTarget = .ok entry) :
    formatStatsTimestamp stats.mtime = .ok entry.modifiedAt ∧ formatStatsTimestamp stats.atime = .ok entry.accessedAt ∧
      entry.name = name ∧ entry.path = path ∧ entry.type = resolveSftpEntryType stats.mode ∧ entry.size = stats.size ∧
      entry.mode = stats.mode ∧ entry.uid = stats.uid ∧ entry.gid = stats.gid := by
  rw [buildSftpEntry] at h
  cases hModified : formatStatsTimestamp stats.mtime with
  | error e =>
    rw [hModified] at h
    cases h
  | ok modifiedAt =>
    cases hAccessed : formatStatsTimestamp stats.atime with
    | error e =>
      rw [hModified, hAccessed] at h
      cases h
    | ok accessedAt =>
      rw [hModified, hAccessed] at h
      cases h
      exact ⟨rfl, rfl, rfl, rfl, rfl, rfl, rfl, rfl, rfl⟩

theorem buildSftpEntry_isOk {name path : Text} {stats : Stats} (longname : Option Text) (symlinkTarget : Option SftpSymlinkTarget)
    (h : HasTimestamps stats) : ∃ entry, buildSftpEntry name path stats longname symlinkTarget = .ok entry := by
  obtain ⟨modifiedAt, hModified⟩ := isDate_iff.mp h.1
  obtain ⟨accessedAt, hAccessed⟩ := isDate_iff.mp h.2
  rw [buildSftpEntry, hModified, hAccessed]
  exact ⟨_, rfl⟩

def Harmless {α : Type} (outcome : Except SftpError α) : Prop := ∀ e, outcome = .error e → e.isSftpOperationFailure = false

theorem formatStatsTimestamp_harmless (seconds : Option Nat) : Harmless (formatStatsTimestamp seconds) := by
  intro e h
  cases seconds with
  | none =>
    cases h
    rfl
  | some value =>
    rw [formatStatsTimestamp] at h
    split at h
    · cases h
    · cases h
      rfl

theorem guardError_of_answer {operation : String} {impact : SftpOperationImpact} {e : SftpError}
    (h : e.isSftpTransportFailure = false) : guardError operation impact e = e := if_pos (.inr (by rw [h]; rfl))

section

variable {σ : Type} (server : AnsweringServer σ)

def AnsweringServer.effect : Program.Effect Request Request.Answer SftpError σ :=
  fun s q result s' => (result, s') = server.answer s q

abbrev AnsweringServer.Ends {α : Type} (fact : Except SftpError α → Prop) (p : SftpProgram α) (s : σ) : Prop :=
  Program.Safe server.effect (fun _ _ => True) (fun outcome _ => fact outcome) p s

variable {server}

theorem ends_answered {operation : String} {impact : SftpOperationImpact} {q : Request} {fact : Except SftpError q.Answer → Prop} {s : σ}
    (h : fact ((server.answer s q).1.mapError (guardError operation impact))) : server.Ends fact (call operation impact q) s := by
  refine safe_call operation impact q trivial ?_
  intro result s' hEffect
  rw [show result = (server.answer s q).1 from congrArg Prod.fst hEffect]
  exact h

variable {α : Type}

theorem ends_bind {β : Type} {fact : Except SftpError α → Prop} {fact' : Except SftpError β → Prop} {p : SftpProgram α}
    {f : α → SftpProgram β} {s : σ} (h : server.Ends fact p s) (hOk : ∀ a s', fact (.ok a) → server.Ends fact' (f a) s')
    (hError : ∀ e, fact (.error e) → fact' (.error e)) : server.Ends fact' (p.bind f) s := Program.Safe.bind h hOk fun e _ => hError e

theorem ends_catchError {fact fact' : Except SftpError α → Prop} {p : SftpProgram α} {handler : SftpError → SftpProgram α}
    {s : σ} (h : server.Ends fact p s) (hOk : ∀ a, fact (.ok a) → fact' (.ok a))
    (hError : ∀ e s', fact (.error e) → server.Ends fact' (handler e) s') : server.Ends fact' (p.catchError handler) s :=
  Program.Safe.catchError h (fun a _ => hOk a) hError

def Succeeds {α : Type} (outcome : Except SftpError α) : Prop := ∃ a, outcome = .ok a

theorem Harmless.rethrown {β : Type} {e : SftpError} (h : Harmless (.error e : Except SftpError α)) :
    Harmless (.error e : Except SftpError β) := by
  rintro _ ⟨⟩
  exact h e rfl

theorem harmless_mapError (operation : String) (impact : SftpOperationImpact) {outcome : Except SftpError α}
    (h : ∀ e, outcome = .error e → e.isSftpOperationFailure = false ∧ e.isSftpTransportFailure = false) :
    Harmless (outcome.mapError (guardError operation impact)) := by
  intro e hError
  cases outcome with
  | ok a => cases hError
  | error thrown =>
    obtain ⟨hFailure, hTransport⟩ := h thrown rfl
    cases hError
    rw [guardError_of_answer hTransport]
    exact hFailure

theorem ends_formatStatsTimestamp (seconds : Option Nat) (s : σ) : server.Ends Harmless (Program.ofExcept (formatStatsTimestamp seconds)) s :=
  Program.safe_ofExcept.mpr (formatStatsTimestamp_harmless seconds)

variable (session : SftpLiveSession)

theorem ends_resolveSymlinkTargetMetadata (linkPath : Text) (s : σ) :
    server.Ends Succeeds (resolveSymlinkTargetMetadata session linkPath) s := by
  refine ends_catchError (?_ : server.Ends Harmless _ s) (fun target _ => ⟨target, rfl⟩) fun e s' hHarmless => ?_
  · refine ends_bind (ends_answered (harmless_mapError "readlink" .read (server.readlink_error s linkPath))) (fun targetPath s' _ => ?_)
      fun e => Harmless.rethrown
    refine ends_catchError (?_ : server.Ends Harmless _ s') (fun target _ => nofun) fun e s'' hHarmless => ?_
    · have hStat := server.stat_error s' (resolveSymlinkTargetPath linkPath targetPath)
      refine ends_bind (ends_answered (harmless_mapError "stat" .read hStat)) (fun targetStats s' _ => ?_) fun e => Harmless.rethrown
      refine ends_bind (ends_formatStatsTimestamp targetStats.mtime s') (fun modifiedAt s'' _ => ?_) fun e => Harmless.rethrown
      exact ends_bind (ends_formatStatsTimestamp targetStats.atime s'') (fun accessedAt s _ => nofun) fun e => Harmless.rethrown
    · rw [hHarmless e rfl]
      exact nofun
  · rw [hHarmless e rfl]
    exact ⟨_, rfl⟩

theorem ends_describeEntry (name path : Text) (stats : Stats) (longname : Option Text) (s : σ) :
    server.Ends (fun outcome => ∃ symlinkTarget, outcome = buildSftpEntry name path stats longname symlinkTarget)
      (describeEntry session name path stats longname) s := by
  have hTarget : server.Ends Succeeds (symlinkTargetOf session path stats) s := by
    rw [symlinkTargetOf]
    split
    · rw [Program.map_eq]
      refine ends_bind (ends_resolveSymlinkTargetMetadata session path s) (fun target s' _ => ⟨some target, rfl⟩) ?_
      rintro e ⟨_, ⟨⟩⟩
    · exact ⟨none, rfl⟩
  refine ends_bind hTarget (fun symlinkTarget s' _ => Program.safe_ofExcept.mpr ⟨symlinkTarget, rfl⟩) ?_
  rintro e ⟨_, ⟨⟩⟩

def AnsweringServer.listed (server : AnsweringServer σ) : List SftpDirectoryEntry := server.entries.filter fun d => !isSpecialName d.filename

def Described (server : AnsweringServer σ) (d : SftpDirectoryEntry) (outcome : Except SftpError SftpEntry) : Prop :=
  ∃ longname symlinkTarget, outcome =
    buildSftpEntry d.filename (joinSftpPath server.resolvedPath d.filename) d.attrs longname symlinkTarget

variable {d : SftpDirectoryEntry}

theorem Described.describes {entry : SftpEntry} (h : Described server d (.ok entry)) : Describes server.resolvedPath d entry := by
  obtain ⟨longname, symlinkTarget, hBuilt⟩ := h
  obtain ⟨hModified, hAccessed, hName, hPath, hType, hSize, hMode, hUid, hGid⟩ := buildSftpEntry_eq_ok hBuilt.symm
  exact ⟨hName, hPath, hType, hSize, hMode, ⟨hUid, hGid⟩, (formatStatsTimestamp_eq_ok_iff.mp hModified).2,
    (formatStatsTimestamp_eq_ok_iff.mp hAccessed).2⟩

theorem Described.succeeds_iff {outcome : Except SftpError SftpEntry} (h : Described server d outcome) :
    Succeeds outcome ↔ HasTimestamps d.attrs := by
  obtain ⟨longname, symlinkTarget, rfl⟩ := h
  constructor
  · rintro ⟨entry, hBuilt⟩
    obtain ⟨hModified, hAccessed, -⟩ := buildSftpEntry_eq_ok hBuilt
    exact ⟨isDate_iff.mpr ⟨_, hModified⟩, isDate_iff.mpr ⟨_, hAccessed⟩⟩
  · exact buildSftpEntry_isOk longname symlinkTarget

theorem described_all {listed : List SftpDirectoryEntry} {outcomes : List (Except SftpError SftpEntry)}
    (h : List.Forall₂ (Described server) listed outcomes) (hTimes : ∀ d ∈ listed, HasTimestamps d.attrs) :
    ∃ entries, outcomes.mapM id = .ok entries ∧ List.Forall₂ (Describes server.resolvedPath) listed entries := by
  induction h with
  | nil => exact ⟨[], rfl, .nil⟩
  | @cons d outcome listed outcomes hFirst _ ih =>
    obtain ⟨entry, rfl⟩ := hFirst.succeeds_iff.mpr (hTimes d List.mem_cons_self)
    obtain ⟨entries, hOk, hDescribed⟩ := ih fun other hOther => hTimes other (List.mem_cons_of_mem d hOther)
    refine ⟨entry :: entries, ?_, .cons hFirst.describes hDescribed⟩
    rw [mapM_id_eq_ok_iff] at hOk ⊢
    rw [hOk]
    rfl

theorem described_none {listed : List SftpDirectoryEntry} {outcomes : List (Except SftpError SftpEntry)}
    (h : List.Forall₂ (Described server) listed outcomes) (hd : d ∈ listed) (hTimes : ¬HasTimestamps d.attrs)
    (entries : List SftpEntry) : outcomes.mapM id ≠ .ok entries := by
  intro hOk
  rw [mapM_id_eq_ok_iff] at hOk
  obtain ⟨outcome, hOutcome, hDescribed⟩ := Program.forall₂_exists_left h.flip d hd
  rw [hOk] at hOutcome
  obtain ⟨entry, -, rfl⟩ := List.mem_map.mp hOutcome
  exact hTimes ((Described.succeeds_iff hDescribed).mp ⟨entry, rfl⟩)

theorem ends_promiseAll {session : SftpLiveSession} (s : σ) :
    server.Ends (fun outcome => ∃ outcomes, List.Forall₂ (Described server) server.listed outcomes ∧ outcome = outcomes.mapM id)
      (promiseAll (fun entry => describeEntry session entry.filename (joinSftpPath server.resolvedPath entry.filename) entry.attrs
        (if entry.longname = [] then none else some entry.longname)) server.listed) s := by
  refine safe_promiseAll_outcomes fun d _ s' => (ends_describeEntry session d.filename _ d.attrs _ s').mono ?_
  rintro outcome _ ⟨symlinkTarget, hBuilt⟩
  exact ⟨_, symlinkTarget, hBuilt⟩

theorem ends_resolveRealPath (inputPath : Text) (s : σ) : server.Ends (· = .ok (some server.resolvedPath)) (resolveRealPath inputPath) s := by
  have hRealpath : server.Ends (· = .ok server.resolvedPath) (Remote.realpath inputPath) s := by
    refine ends_answered ?_
    rw [server.realpath_answer]
    rfl
  refine ends_catchError (?_ : server.Ends (· = .ok (some server.resolvedPath)) _ s) (fun a h => h) fun e s' => nofun
  refine ends_bind hRealpath (fun path s' hPath => ?_) fun e => nofun
  cases hPath
  rfl

variable {fact : Except SftpError (SftpResult SftpDirectoryListing) → Prop}

theorem ends_listResolved (collation : Collation) (s : σ)
    (hOk : ∀ outcomes entries, List.Forall₂ (Described server) server.listed outcomes → outcomes.mapM id = .ok entries →
      fact (.ok (.success ⟨session.sessionId, server.resolvedPath, resolveParentPath server.resolvedPath,
        sortSftpEntriesByBrowserOrder collation entries⟩)))
    (hError : ∀ outcomes e, List.Forall₂ (Described server) server.listed outcomes → outcomes.mapM id = .error e → fact (.error e)) :
    server.Ends fact (listResolved session collation server.resolvedPath) s := by
  have hReaddir : server.Ends (· = .ok server.entries) (Remote.readdir server.resolvedPath) s := by
    refine ends_answered ?_
    rw [server.readdir_answer]
    rfl
  refine ends_bind hReaddir (fun entries s' hEntries => ?_) fun e => nofun
  cases hEntries
  refine ends_bind (ends_promiseAll s') (fun entries s'' hEntries => ?_) fun e hFailed => ?_
  · obtain ⟨outcomes, hDescribed, hAll⟩ := hEntries
    exact hOk outcomes entries hDescribed hAll.symm
  · obtain ⟨outcomes, hDescribed, hAll⟩ := hFailed
    exact hError outcomes e hDescribed hAll.symm

theorem ends_listDirectoryPrimitive (collation : Collation) (requestedPath : Option Text) (s : σ)
    (hOk : ∀ outcomes entries, List.Forall₂ (Described server) server.listed outcomes → outcomes.mapM id = .ok entries →
      fact (.ok (.success ⟨session.sessionId, server.resolvedPath, resolveParentPath server.resolvedPath,
        sortSftpEntriesByBrowserOrder collation entries⟩)))
    (hError : ∀ outcomes e, List.Forall₂ (Described server) server.listed outcomes → outcomes.mapM id = .error e →
      fact (.ok (failedWith session e "errors.sftp.directoryListFailedNoReason"))) :
    server.Ends fact (listDirectoryPrimitive session collation requestedPath) s := by
  have hOpen : server.Ends (· = .ok true) getOpenSession s :=
    Program.Safe.request trivial fun result s' hEffect =>
      (show result = (server.answer s .sessionOpen).1 from congrArg Prod.fst hEffect).trans (server.sessionOpen_answer s)
  refine ends_bind hOpen (fun isOpen s' hIsOpen => ?_) fun e => nofun
  cases hIsOpen
  refine ends_catchError (?_ : server.Ends (fun outcome => (∀ a, outcome = .ok a → fact (.ok a)) ∧ ∀ e, outcome = .error e →
    fact (.ok (failedWith session e "errors.sftp.directoryListFailedNoReason"))) _ s') (fun a h => h.1 a rfl) fun e s'' h => h.2 e rfl
  refine ends_bind (ends_resolveRealPath (normalizeSftpPathInput requestedPath) s') (fun resolved s'' hResolved => ?_) fun e => nofun
  cases hResolved
  rw [Option.filter_some, if_pos (decide_eq_true server.resolvedPath_ne_nil)]
  refine ends_listResolved session collation s'' (fun outcomes entries hDescribed hAll => ⟨?_, nofun⟩)
    fun outcomes e hDescribed hFailed => ⟨nofun, ?_⟩
  · rintro _ ⟨⟩
    exact hOk outcomes entries hDescribed hAll
  · rintro _ ⟨⟩
    exact hError outcomes e hDescribed hFailed

end

/-- A listing is lossless if and only if every entry has its times, within the range of a date. -/
theorem listing_is_lossless_iff {σ : Type} (server : AnsweringServer σ) (session : SftpLiveSession) (collation : Collation)
    (requestedPath : Option Text) (s : σ) :
    LosslessListing server (Program.run server.answer (listDirectoryPrimitive session collation requestedPath) s).1 ↔
      ∀ d ∈ server.entries, isSpecialName d.filename = false → HasTimestamps d.attrs := by
  have hListed : (∀ d ∈ server.entries, isSpecialName d.filename = false → HasTimestamps d.attrs) ↔
      ∀ d ∈ server.listed, HasTimestamps d.attrs := by
    simp [AnsweringServer.listed]
  rw [hListed]
  have hRun : server.Ends (fun outcome => LosslessListing server outcome ↔ ∀ d ∈ server.listed, HasTimestamps d.attrs)
      (listDirectoryPrimitive session collation requestedPath) s := by
    refine ends_listDirectoryPrimitive session collation requestedPath s ?_ ?_
    · intro outcomes entries hDescribed hAll
      have hTimes : ∀ d ∈ server.listed, HasTimestamps d.attrs := fun d hd => by
        by_contra hLacks
        exact described_none hDescribed hd hLacks entries hAll
      obtain ⟨_, hSame, hEntries⟩ := described_all hDescribed hTimes
      rw [hAll] at hSame
      cases hSame
      exact iff_of_true ⟨_, entries, rfl, rfl, List.mergeSort_perm entries _, hEntries⟩ hTimes
    · intro outcomes e hDescribed hFailed
      refine iff_of_false ?_ fun hTimes => ?_
      · rintro ⟨listing, entries, hSuccess, -⟩
        cases hSuccess
      · obtain ⟨entries, hAll, -⟩ := described_all hDescribed hTimes
        rw [hFailed] at hAll
        cases hAll
  exact hRun.run fun _ _ => rfl

def timelessFile (filename : Text) : SftpDirectoryEntry := ⟨filename, [], ⟨some 0o100644, some 0, some 0, some 1, none, none⟩⟩

def directoryAnswers (entries : List SftpDirectoryEntry) : AnsweringServer Unit where
  answer := serveDirectory entries
  resolvedPath := "/d".toList
  entries := entries
  resolvedPath_ne_nil := by decide
  sessionOpen_answer := fun _ => rfl
  realpath_answer := fun _ _ => rfl
  readdir_answer := fun _ _ => rfl
  readlink_error := by
    rintro _ _ _ ⟨⟩
    decide
  stat_error := by
    rintro _ _ _ ⟨⟩
    decide

theorem timeless_entry_fails_listing : ¬LosslessListing (directoryAnswers [plainFile "a".toList, timelessFile "b".toList]) (Program.run
      (directoryAnswers [plainFile "a".toList, timelessFile "b".toList]).answer
      (listDirectoryPrimitive openedSession byName (some "/d".toList)) ()).1 ∧
    ∃ message metadata, (Program.run (directoryAnswers [plainFile "a".toList, timelessFile "b".toList]).answer
      (listDirectoryPrimitive openedSession byName (some "/d".toList)) ()).1 = .ok (.failed message false metadata) := by
  have hFailed : ∃ message metadata, (Program.run (directoryAnswers [plainFile "a".toList, timelessFile "b".toList]).answer
      (listDirectoryPrimitive openedSession byName (some "/d".toList)) ()).1 = .ok (.failed message false metadata) := ⟨_, _, rfl⟩
  refine ⟨?_, hFailed⟩
  rintro ⟨listing, entries, hSuccess, -⟩
  obtain ⟨message, metadata, hRun⟩ := hFailed
  rw [hRun] at hSuccess
  cases hSuccess

end Sftp
