import Cosmosh.Library.RenderedPath
import Cosmosh.Sftp.EntryListing

/-! # Listed paths on their way back

The path of a listed entry goes through the client and returns as the path of another request.
-/

namespace Sftp

open Library Library.JsText Library.PosixPath

theorem joinSftpPath_render {directory : List Text} (hDirectory : ∀ n ∈ directory, Plain n) {name : Text}
    (h : Plain name) : joinSftpPath (render directory false) name = render (directory ++ [name]) false := by
  by_cases hRoot : render directory false = "/".toList
  · have hEmpty : directory = [] := by
      have hLocation := congrArg location hRoot
      rwa [location_render hDirectory] at hLocation
    rw [hRoot, joinSftpPath_root, hEmpty]
    exact show PosixPath.normalize ([] ++ '/' :: name) = render (location [] ++ [name]) false from
      normalize_append_plain rfl h
  · rw [joinSftpPath_eq_normalize hRoot, normalize_append_plain rfl h, location_render hDirectory]

theorem trim_listed (directory : List Text) (name : Text) :
    trim (parentPrefix directory ++ '/' :: name) = parentPrefix directory ++ '/' :: trimEnd name := by
  obtain ⟨rest, hRest⟩ := (isAbsolute_iff _).mp (isAbsolute_parentPrefix directory name)
  rw [hRest, trim_cons_of_not (by decide), ← hRest, trimEnd_append_cons _ (by decide)]

theorem isAbsolute_replaceChar {p : Text} (h : isAbsolute p = true) : isAbsolute (replaceChar '\\' '/' p) = true := by
  obtain ⟨rest, rfl⟩ := (isAbsolute_iff p).mp h
  rfl

theorem normalizeSftpPathInput_listed_iff {directory : List Text} (hDirectory : ∀ n ∈ directory, Plain n) {name : Text} (h : Plain name) :
    normalizeSftpPathInput (some (render (directory ++ [name]) false)) = render (directory ++ [name]) false ↔
      (∀ n ∈ directory ++ [name], '\\' ∉ n) ∧ ¬EndsInWhitespace name := by
  have hAbsolute := isAbsolute_replaceChar (isAbsolute_parentPrefix directory (trimEnd name))
  have hNormalized : normalizeSftpPathInput (some (render (directory ++ [name]) false)) =
      normalize (replaceChar '\\' '/' (parentPrefix directory ++ '/' :: trimEnd name)) := by
    rw [render_concat_eq, normalizeSftpPathInput_of_absolute (by rwa [trim_listed]), trim_listed]
  have hBackslash : (∀ n ∈ directory ++ [name], '\\' ∉ n) ↔ '\\' ∉ render (directory ++ [name]) false := by
    rw [mem_render_iff (by decide)]
    simp only [not_exists, not_and]
  rw [hNormalized, hBackslash]
  constructor
  · intro hSame
    have hNot : '\\' ∉ render (directory ++ [name]) false := by
      intro hMem
      rw [← hSame] at hMem
      exact not_mem_replaceChar (by decide) _ (mem_of_mem_normalize hAbsolute (by decide) hMem)
    refine ⟨hNot, fun hEnds => ?_⟩
    have hTrimmed : '\\' ∉ parentPrefix directory ++ '/' :: trimEnd name := by
      rw [← trim_listed, ← render_concat_eq]
      exact fun hMem => hNot ((trimStart_suffix _).subset ((trimEnd_isPrefix _).subset hMem))
    have hLocation := congrArg location hSame
    rw [location_normalize hAbsolute, replaceChar_of_not_mem hTrimmed,
      location_render (all_plain_concat hDirectory h)] at hLocation
    have hWalk := congrArg List.reverse hLocation
    rw [location, resolveSegments, foldl_pushSegment_append, List.reverse_reverse, location_parentPrefix hDirectory,
      List.splitOn_eq_singleton (fun hMem => h.no_separator ((trimEnd_isPrefix name).subset hMem)),
      List.reverse_append] at hWalk
    exact pushSegment_ne_cons (length_trimEnd_lt hEnds) hWalk.symm
  · rintro ⟨hNot, hEnds⟩
    rw [(trimEnd_eq_self_iff name).mpr hEnds, ← render_concat_eq, replaceChar_of_not_mem hNot, render_concat_eq,
      normalize_append_plain (isAbsolute_parentPrefix directory []) h, location_parentPrefix hDirectory,
      render_concat_eq]

section Listing

variable {σ : Type} {effect : Program.Effect Request Request.Answer SftpError σ} {before : σ → Request → Prop}

theorem mapM_id_eq_ok_iff {ε α : Type} {outcomes : List (Except ε α)} {results : List α} :
    outcomes.mapM id = .ok results ↔ outcomes = results.map .ok := by
  induction outcomes generalizing results with
  | nil => cases results <;> simp [pure, Except.pure]
  | cons outcome outcomes ih =>
    rw [List.mapM_cons]
    cases outcome with
    | error e => cases results <;> exact iff_of_false nofun nofun
    | ok a =>
      constructor
      · intro h
        cases hRest : outcomes.mapM id with
        | error e =>
          rw [hRest] at h
          cases h
        | ok rest =>
          rw [hRest] at h
          cases h
          rw [ih.mp hRest, List.map_cons]
      · intro h
        cases results with
        | nil => cases h
        | cons b rest =>
          obtain ⟨hHead, hTail⟩ := List.cons.inj h
          cases hHead
          rw [ih.mpr hTail]
          rfl

theorem safe_promiseAll_outcomes {α γ : Type} {R : γ → Except SftpError α → Prop} {body : γ → SftpProgram α} {items : List γ} {s : σ}
    (hBody : ∀ x ∈ items, ∀ s', Program.Safe effect before (fun outcome _ => R x outcome) (body x) s') :
    Program.Safe effect before (fun outcome _ => ∃ outcomes, List.Forall₂ R items outcomes ∧ outcome = outcomes.mapM id)
      (promiseAll body items) s := by
  have hAttempts : Program.Safe effect before (fun outcome _ => ∃ outcomes, outcome = .ok outcomes ∧ List.Forall₂ R items outcomes)
      (Program.forEach (fun x => Program.attempt (body x)) items) s := by
    induction items generalizing s with
    | nil => exact ⟨[], rfl, .nil⟩
    | cons x items ih =>
      refine (hBody x List.mem_cons_self s).attempt.bind ?_ ?_
      · rintro outcome s' ⟨_, ⟨⟩, hFirst⟩
        refine (ih fun y hy => hBody y (List.mem_cons_of_mem x hy)).bind ?_ ?_
        · rintro outcomes s'' ⟨_, ⟨⟩, hRest⟩
          exact ⟨outcome :: outcomes, rfl, .cons hFirst hRest⟩
        · rintro e s'' ⟨_, ⟨⟩, -⟩
      · rintro e s' ⟨_, ⟨⟩, -⟩
  refine hAttempts.bind ?_ ?_
  · rintro outcomes s' ⟨_, ⟨⟩, hRelated⟩
    exact Program.safe_ofExcept.mpr ⟨outcomes, hRelated, rfl⟩
  · rintro e s' ⟨_, ⟨⟩, -⟩

theorem safe_promiseAll {α γ : Type} {R : γ → α → Prop} {body : γ → SftpProgram α} {items : List γ} {s : σ}
    (hBody : ∀ x ∈ items, ∀ s', Program.Safe effect before (fun outcome _ => ∀ a, outcome = .ok a → R x a)
      (body x) s') : Program.Safe effect before (fun outcome _ => ∀ results, outcome = .ok results →
        List.Forall₂ R items results) (promiseAll body items) s := by
  refine (safe_promiseAll_outcomes hBody).mono ?_
  rintro _ _ ⟨outcomes, hRelated, rfl⟩ results hResults
  rw [mapM_id_eq_ok_iff.mp hResults, List.forall₂_map_right_iff] at hRelated
  exact hRelated.imp fun x a h => h a rfl

theorem buildSftpEntry_ok {name path : Text} {stats : Stats} {longname : Option Text}
    {symlinkTarget : Option SftpSymlinkTarget} {entry : SftpEntry} (h : buildSftpEntry name path stats longname symlinkTarget = .ok entry) :
    entry.name = name ∧ entry.path = path := by
  rw [buildSftpEntry] at h
  cases hModified : formatStatsTimestamp stats.mtime with
  | error e =>
    rw [hModified] at h
    cases h
  | ok modifiedAt =>
    cases hAccessed : formatStatsTimestamp stats.atime with
    | error e =>
      rw [hModified, hAccessed] at h
      cases h
    | ok accessedAt =>
      rw [hModified, hAccessed] at h
      cases h
      exact ⟨rfl, rfl⟩

theorem safe_describeEntry (session : SftpLiveSession) (name path : Text) (stats : Stats) (longname : Option Text)
    (s : σ) : Program.Safe effect (fun _ _ => True) (fun outcome _ => ∀ entry, outcome = .ok entry →
      entry.name = name ∧ entry.path = path) (describeEntry session name path stats longname) s := by
  refine Program.Safe.bind (Program.safe_trivial (symlinkTargetOf session path stats) s) ?_ ?_
  · intro symlinkTarget s' _
    exact Program.safe_ofExcept.mpr fun entry hEntry => buildSftpEntry_ok hEntry
  · rintro e s' _ entry ⟨⟩

end Listing

structure HonestServer (σ : Type) where
  answer : σ → (q : Request) → Except SftpError q.Answer × σ
  directory : List Text
  entries : List SftpDirectoryEntry
  directory_plain : ∀ n ∈ directory, Plain n
  entries_plain : ∀ d ∈ entries, isSpecialName d.filename = false → Plain d.filename
  realpath_answer : ∀ s path resolved, (answer s (.realpath path)).1 = .ok resolved →
    resolved = render directory false
  readdir_answer : ∀ s path listed, (answer s (.readdir path)).1 = .ok listed → listed = entries

variable {σ : Type} (server : HonestServer σ)

def Lists (listing : SftpDirectoryListing) : Prop :=
  (∀ entry ∈ listing.entries, ∃ d ∈ server.entries, isSpecialName d.filename = false ∧ entry.name = d.filename ∧
    entry.path = render (server.directory ++ [d.filename]) false) ∧
  ∀ d ∈ server.entries, isSpecialName d.filename = false → ∃ entry ∈ listing.entries, entry.name = d.filename ∧
    entry.path = render (server.directory ++ [d.filename]) false

def HonestServer.effect : Program.Effect Request Request.Answer SftpError σ :=
  fun s q result s' => (result, s') = server.answer s q

theorem safe_resolveRealPath (inputPath : Text) (s : σ) :
    Program.Safe server.effect (fun _ _ => True) (fun outcome _ => ∀ resolved, outcome = .ok (some resolved) →
      resolved = render server.directory false) (resolveRealPath inputPath) s := by
  rw [resolveRealPath, Program.tryCatch_eq, Program.map_eq]
  have hRealpath : Program.Safe server.effect (fun _ _ => True) (fun outcome _ => ∀ resolved,
      outcome = .ok resolved → resolved = render server.directory false) (Remote.realpath inputPath) s := by
    refine safe_call "realpath" .read (Request.realpath inputPath) trivial ?_
    intro result s' hEffect resolved hResolved
    have hResult : (server.answer s (.realpath inputPath)).1 = result := (congrArg Prod.fst hEffect).symm
    cases result with
    | error e => cases hResolved
    | ok path =>
      cases hResolved
      exact server.realpath_answer s inputPath resolved hResult
  have hMapped : Program.Safe server.effect (fun _ _ => True) (fun outcome _ => ∀ resolved,
      outcome = .ok (some resolved) → resolved = render server.directory false)
      ((Remote.realpath inputPath).bind fun resolved => .done (some resolved)) s := by
    refine hRealpath.bind ?_ ?_
    · rintro path s' hPath _ ⟨⟩
      exact hPath path rfl
    · rintro e s' _ _ ⟨⟩
  refine hMapped.catchError (fun _ _ hAfter => hAfter) ?_
  intro e s' _
  split
  · rintro _ ⟨⟩
  · rintro _ ⟨⟩

theorem safe_readdir (path : Text) (s : σ) : Program.Safe server.effect (fun _ _ => True) (fun outcome _ => ∀ listed, outcome = .ok listed →
      listed = server.entries) (Remote.readdir path) s := by
  refine safe_call "readdir" .read (Request.readdir path) trivial ?_
  intro result s' hEffect listed hListed
  have hResult : (server.answer s (.readdir path)).1 = result := (congrArg Prod.fst hEffect).symm
  cases result with
  | error e => cases hListed
  | ok entries =>
    cases hListed
    exact server.readdir_answer s path listed hResult

theorem lists_of_related {listing : SftpDirectoryListing} {mappedEntries : List SftpEntry} {collation : Collation}
    (hEntries : listing.entries = sortSftpEntriesByBrowserOrder collation mappedEntries)
    (hMapped : List.Forall₂ (fun (d : SftpDirectoryEntry) (entry : SftpEntry) => entry.name = d.filename ∧
        entry.path = joinSftpPath (render server.directory false) d.filename)
      (server.entries.filter fun d => !isSpecialName d.filename) mappedEntries) : Lists server listing := by
  have hPath : ∀ d ∈ server.entries, isSpecialName d.filename = false →
      joinSftpPath (render server.directory false) d.filename =
        render (server.directory ++ [d.filename]) false := fun d hd hSpecial =>
    joinSftpPath_render server.directory_plain (server.entries_plain d hd hSpecial)
  have hMem : ∀ entry, entry ∈ listing.entries ↔ entry ∈ mappedEntries := by
    intro entry
    rw [hEntries, sortSftpEntriesByBrowserOrder, List.mem_mergeSort]
  constructor
  · intro entry hEntry
    obtain ⟨d, hd, hName, hJoin⟩ := Program.forall₂_exists_left hMapped entry ((hMem entry).mp hEntry)
    obtain ⟨hd, hSpecial⟩ := List.mem_filter.mp hd
    rw [Bool.not_eq_true'] at hSpecial
    exact ⟨d, hd, hSpecial, hName, hJoin.trans (hPath d hd hSpecial)⟩
  · intro d hd hSpecial
    obtain ⟨entry, hEntry, hName, hJoin⟩ := Program.forall₂_exists_left hMapped.flip d
      (List.mem_filter.mpr ⟨hd, by rw [hSpecial]; rfl⟩)
    exact ⟨entry, (hMem entry).mpr hEntry, hName, hJoin.trans (hPath d hd hSpecial)⟩

theorem safe_listResolved (session : SftpLiveSession) (collation : Collation) (s : σ) :
    Program.Safe server.effect (fun _ _ => True) (fun outcome _ => ∀ listing, outcome = .ok (.success listing) →
      Lists server listing) (listResolved session collation (render server.directory false)) s := by
  refine Program.Safe.bind (safe_readdir server (render server.directory false) s) ?_ ?_
  · intro entries s' hEntries
    obtain rfl := hEntries entries rfl
    refine Program.Safe.bind (safe_promiseAll fun entry _ s'' => safe_describeEntry session entry.filename
      (joinSftpPath (render server.directory false) entry.filename) entry.attrs _ s'') ?_ ?_
    · intro mappedEntries s'' hMapped
      rintro _ ⟨⟩
      exact lists_of_related server rfl (hMapped mappedEntries rfl)
    · rintro e s'' _ listing ⟨⟩
  · rintro e s' _ listing ⟨⟩

theorem safe_listDirectoryPrimitive (session : SftpLiveSession) (collation : Collation) (requestedPath : Option Text) (s : σ) :
    Program.Safe server.effect (fun _ _ => True) (fun outcome _ => ∀ listing, outcome = .ok (.success listing) →
      Lists server listing) (listDirectoryPrimitive session collation requestedPath) s := by
  refine Program.Safe.bind (Program.safe_trivial getOpenSession s) ?_ ?_
  · intro isOpen s' _
    split
    · refine Program.Safe.catchError (?_ : Program.Safe server.effect (fun _ _ => True) (fun outcome _ =>
        ∀ listing, outcome = .ok (.success listing) → Lists server listing) _ s') (fun _ _ hAfter => hAfter) ?_
      · refine Program.Safe.bind (safe_resolveRealPath server _ s') ?_ ?_
        · intro resolved s'' hResolved
          cases hFilter : resolved.filter (· ≠ []) with
          | none => rintro listing ⟨⟩
          | some path =>
            obtain ⟨hSome, -⟩ := Option.filter_eq_some_iff.mp hFilter
            obtain rfl := hResolved path (congrArg _ hSome)
            exact safe_listResolved server session collation s''
        · rintro e s'' _ listing ⟨⟩
      · rintro e s'' _ listing ⟨⟩
    · rintro listing ⟨⟩
  · rintro e s' _ listing ⟨⟩

theorem listDirectoryPrimitive_lists {session : SftpLiveSession} {collation : Collation}
    {requestedPath : Option Text} {s s' : σ} {listing : SftpDirectoryListing}
    (h : Program.run server.answer (listDirectoryPrimitive session collation requestedPath) s =
      (.ok (.success listing), s')) : Lists server listing := by
  have hRun := (safe_listDirectoryPrimitive server session collation requestedPath s).run fun _ _ => rfl
  rw [h] at hRun
  exact hRun listing rfl

structure RoundTrips (directory : List Text) (listing : SftpDirectoryListing) : Prop where
  unchanged : ∀ entry ∈ listing.entries, normalizeSftpPathInput (some entry.path) = entry.path
  resolves : ∀ entry ∈ listing.entries,
    location (normalizeSftpPathInput (some entry.path)) = directory ++ [entry.name]
  distinct : ∀ a ∈ listing.entries, ∀ b ∈ listing.entries, a.name ≠ b.name → a.path ≠ b.path

/-- A listing comes back intact exactly when no name on the way to a listed entry holds a backslash and
no listed name ends in white space. -/
theorem listing_round_trips_iff (server : HonestServer σ) (session : SftpLiveSession) (collation : Collation)
    (requestedPath : Option Text) (s s' : σ) (listing : SftpDirectoryListing)
    (hRun : Program.run server.answer (listDirectoryPrimitive session collation requestedPath) s = (.ok (.success listing), s')) :
    RoundTrips server.directory listing ↔ ∀ d ∈ server.entries, isSpecialName d.filename = false →
      (∀ n ∈ server.directory ++ [d.filename], '\\' ∉ n) ∧ ¬EndsInWhitespace d.filename := by
  obtain ⟨hListed, hAll⟩ := listDirectoryPrimitive_lists server hRun
  constructor
  · intro hTrip d hd hSpecial
    obtain ⟨entry, hEntry, hName, hPath⟩ := hAll d hd hSpecial
    have hSame := hTrip.unchanged entry hEntry
    rw [hPath] at hSame
    exact (normalizeSftpPathInput_listed_iff server.directory_plain (server.entries_plain d hd hSpecial)).mp hSame
  · intro hNames
    have hUnchanged : ∀ entry ∈ listing.entries, normalizeSftpPathInput (some entry.path) = entry.path := by
      intro entry hEntry
      obtain ⟨d, hd, hSpecial, hName, hPath⟩ := hListed entry hEntry
      rw [hPath]
      exact (normalizeSftpPathInput_listed_iff server.directory_plain (server.entries_plain d hd hSpecial)).mpr
        (hNames d hd hSpecial)
    have hLocation : ∀ entry ∈ listing.entries, location entry.path = server.directory ++ [entry.name] := by
      intro entry hEntry
      obtain ⟨d, hd, hSpecial, hName, hPath⟩ := hListed entry hEntry
      rw [hPath, hName,
        location_render (all_plain_concat server.directory_plain (server.entries_plain d hd hSpecial))]
    refine ⟨hUnchanged, fun entry hEntry => by rw [hUnchanged entry hEntry, hLocation entry hEntry], ?_⟩
    intro a ha b hb hDistinct hPaths
    have hSame := hLocation a ha
    rw [hPaths, hLocation b hb] at hSame
    exact hDistinct (List.singleton_inj.mp (List.append_cancel_left hSame)).symm

def plainFile (filename : Text) : SftpDirectoryEntry := ⟨filename, [], ⟨some 0o100644, some 0, some 0, some 1, some 0, some 0⟩⟩

/-- The directory `/d` with the given files. -/
def serveDirectory (entries : List SftpDirectoryEntry) : Unit → (q : Request) → Except SftpError q.Answer × Unit
  | (), .sessionOpen => (.ok true, ())
  | (), .realpath _ => (.ok "/d".toList, ())
  | (), .readdir _ => (.ok entries, ())
  | (), _ => (.error (.other [] none), ())

def directoryServer (entries : List SftpDirectoryEntry)
    (h : ∀ d ∈ entries, isSpecialName d.filename = false → Plain d.filename) : HonestServer Unit where
  answer := serveDirectory entries
  directory := ["d".toList]
  entries := entries
  directory_plain := by
    intro n hn
    rw [List.mem_singleton] at hn
    rw [hn]
    exact ⟨by decide, by decide, by decide, by decide⟩
  entries_plain := h
  realpath_answer := by
    rintro _ _ _ ⟨⟩
    exact show "/d".toList = render ["d".toList] false by decide
  readdir_answer := by
    rintro _ path listed ⟨⟩
    rfl

def blankServer : HonestServer Unit :=
  directoryServer [plainFile "a ".toList, plainFile "a".toList] (by
    intro d hd _
    simp only [List.mem_cons, List.not_mem_nil, or_false] at hd
    obtain rfl | rfl := hd <;> exact ⟨by decide, by decide, by decide, by decide⟩)

def byName : Collation where
  localeCompare := fun a b => (a.length : Int) - b.length
  total := by omega
  trans := by omega

def openedSession : SftpLiveSession := ⟨"s".toList, false, fun key _ => key.toList⟩

theorem listing_round_trips_iff_of_blank_names : ∃ listing s',
    Program.run blankServer.answer (listDirectoryPrimitive openedSession byName (some "/d".toList)) () = (.ok (.success listing), s') ∧
    (RoundTrips blankServer.directory listing ↔ ∀ d ∈ blankServer.entries, isSpecialName d.filename = false →
      (∀ n ∈ blankServer.directory ++ [d.filename], '\\' ∉ n) ∧ ¬EndsInWhitespace d.filename) :=
  ⟨_, _, rfl, listing_round_trips_iff blankServer openedSession byName (some "/d".toList) () _ _ rfl⟩

theorem blank_name_comes_back_as_another : ∃ listing s',
    Program.run blankServer.answer (listDirectoryPrimitive openedSession byName (some "/d".toList)) () = (.ok (.success listing), s') ∧
    ¬RoundTrips blankServer.directory listing ∧ ∃ a ∈ listing.entries, ∃ b ∈ listing.entries,
      a.name ≠ b.name ∧ normalizeSftpPathInput (some a.path) = b.path := by
  have hRun : ∃ listing s', Program.run blankServer.answer
      (listDirectoryPrimitive openedSession byName (some "/d".toList)) () = (.ok (.success listing), s') := ⟨_, _, rfl⟩
  obtain ⟨listing, s', hRun⟩ := hRun
  obtain ⟨-, hAll⟩ := listDirectoryPrimitive_lists blankServer hRun
  obtain ⟨a, ha, haName, haPath⟩ := hAll (plainFile "a ".toList) List.mem_cons_self (by decide)
  obtain ⟨b, hb, hbName, hbPath⟩ := hAll (plainFile "a".toList) (List.mem_cons_of_mem _ List.mem_cons_self)
    (by decide)
  have hDistinct : a.name ≠ b.name := by
    rw [haName, hbName]
    decide
  have hSame : normalizeSftpPathInput (some a.path) = b.path := by
    rw [haPath, hbPath]
    decide
  refine ⟨listing, s', hRun, fun hTrip => ?_, a, ha, b, hb, hDistinct, hSame⟩
  exact hTrip.distinct a ha b hb hDistinct ((hTrip.unchanged a ha).symm.trans hSame)

end Sftp
