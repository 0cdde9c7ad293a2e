import Cosmosh.Library.HttpsUrl

/-! # Texts between the scheme and a port

A text is put between `https://` and a port.
-/

namespace Library.HttpsUrl

open Library

variable {t : Text}

theorem splitCredentials_of_not_mem (h : '@' ∉ t) : splitCredentials t = (none, t) := by
  induction t with
  | nil => rfl
  | cons c t ih =>
    obtain ⟨hc, hRest⟩ := not_or.mp (mt List.mem_cons.mpr h)
    rw [splitCredentials, ih hRest]
    exact if_neg (Ne.symm hc)

theorem splitCredentials_append (h : '@' ∉ t) (front : Text) :
    splitCredentials (front ++ t) = ((splitCredentials front).1, (splitCredentials front).2 ++ t) := by
  induction front with
  | nil => exact splitCredentials_of_not_mem h
  | cons c front ih =>
    rw [List.cons_append, splitCredentials, splitCredentials, ih]
    cases splitCredentials front with
    | mk credentials host =>
      cases credentials with
      | some credentials => rfl
      | none =>
        dsimp only
        split <;> rfl

theorem splitCredentials_eq (t : Text) : (splitCredentials t = (none, t) ∧ '@' ∉ t) ∨
      ∃ credentials host, splitCredentials t = (some credentials, host) ∧ t = credentials ++ '@' :: host := by
  induction t with
  | nil => exact .inl ⟨rfl, List.not_mem_nil⟩
  | cons c t ih =>
    rw [splitCredentials]
    obtain ⟨hSplit, hNone⟩ | ⟨credentials, host, hSplit, rfl⟩ := ih
    · rw [hSplit]
      by_cases hc : c = '@'
      · exact .inr ⟨[], t, if_pos hc, by rw [hc]; rfl⟩
      · refine .inl ⟨if_neg hc, ?_⟩
        rintro hMem
        obtain hMem | hMem := List.mem_cons.mp hMem
        · exact hc hMem.symm
        · exact hNone hMem
    · rw [hSplit]
      exact .inr ⟨c :: credentials, host, rfl, rfl⟩

theorem splitPort_append (inside : Bool) (front t : Text) : splitPort inside (front ++ t) = match (splitPort inside front).2 with
      | some port => ((splitPort inside front).1, some (port ++ t))
      | none => (front ++ (splitPort (front.foldl bracketState inside) t).1, (splitPort (front.foldl bracketState inside) t).2) := by
  induction front generalizing inside with
  | nil => rfl
  | cons c front ih =>
    rw [List.cons_append, splitPort, splitPort]
    split
    · rfl
    · rw [ih, List.foldl_cons]
      cases (splitPort (bracketState inside c) front).2 <;> rfl

structure Closed (t : Text) : Prop where
  port : (splitPort false t).2 = none
  brackets : t.foldl bracketState false = false

theorem Closed.splitPort (h : Closed t) (rest : Text) : splitPort false (t ++ ':' :: rest) = (t, some rest) := by
  rw [splitPort_append, h.port, h.brackets]
  simp [HttpsUrl.splitPort]

theorem splitPort_digits {digits : Text} (h : ∀ c ∈ digits, c.isDigit = true) : splitPort true digits = (digits, none) := by
  induction digits with
  | nil => rfl
  | cons c digits ih =>
    obtain ⟨hc, hRest⟩ := List.forall_mem_cons.mp h
    have hInside : bracketState true c = true := by
      rw [bracketState]
      split
      · rfl
      · split
        · next hClose => rw [hClose] at hc; cases hc
        · rfl
    rw [splitPort, if_neg (by simp), hInside, ih hRest]

theorem parsePort_of_colon (h : ':' ∈ t) : parsePort t = none := by
  have hAll : t.all Char.isDigit = false := by
    rw [List.all_eq_false]
    exact ⟨':', h, by decide⟩
  rw [parsePort, if_neg (List.ne_nil_of_mem h), if_pos hAll]

variable {port : Nat} {c : Char}

theorem isDigit_of_mem_portDigits (h : c ∈ portDigits port) : c.isDigit = true := Nat.isDigit_of_mem_toDigits (by decide) (by decide) h

theorem portDigits_ne_nil (port : Nat) : portDigits port ≠ [] := Nat.toDigits_ne_nil

theorem parsePort_portDigits (h : port ≤ 65535) : parsePort (portDigits port) = some (if port = DEFAULT_PORT then [] else portDigits port) := by
  have hAll : (portDigits port).all Char.isDigit = true := by
    rw [List.all_eq_true]
    exact fun c hc => isDigit_of_mem_portDigits hc
  have hValue : Nat.ofDigitChars 10 (portDigits port) 0 = port := Nat.ofDigitChars_ten_toDigits
  rw [parsePort, if_neg (portDigits_ne_nil port), if_neg (by simp [hAll])]
  simp only [hValue]
  rw [if_neg (by omega)]
  split <;> rfl

theorem percentEncode_eq_nil {set : Char → Bool} : percentEncode set t = [] ↔ t = [] := by
  constructor
  · intro h
    cases t with
    | nil => rfl
    | cons c t =>
      rw [percentEncode, List.flatMap_cons, List.append_eq_nil_iff] at h
      have hChar := h.1
      split at hChar
      · cases hBytes : String.utf8EncodeChar c with
        | nil => exact absurd hBytes String.utf8EncodeChar_ne_nil
        | cons b bytes =>
          rw [hBytes] at hChar
          cases hChar
      · cases hChar
  · rintro rfl
    rfl

/-- The user before an `@` that leaves neither name nor password. -/
def emptyUsers : List Text := [[], ['@'], [':', '@']]

theorem emptyUser_of_encode {credentials : Text} {a b : Char → Bool} (hName : percentEncode a (credentials.takeWhile (· ≠ ':')) = [])
    (hPassword : percentEncode b ((credentials.dropWhile (· ≠ ':')).drop 1) = []) : credentials ++ ['@'] ∈ emptyUsers := by
  rw [percentEncode_eq_nil] at hName hPassword
  cases credentials with
  | nil => exact List.mem_cons_of_mem _ List.mem_cons_self
  | cons c credentials =>
    by_cases hc : c = ':'
    · subst hc
      rw [List.dropWhile_cons_of_neg (by simp), List.drop_succ_cons, List.drop_zero] at hPassword
      rw [hPassword]
      exact List.mem_cons_of_mem _ (List.mem_cons_of_mem _ List.mem_cons_self)
    · rw [List.takeWhile_cons_of_pos (by simpa using hc)] at hName
      cases hName

variable {p : Char → Bool}

theorem splitOnP_append (h : ∀ c ∈ t, p c = false) (front : Text) : ∃ pieces last, (front ++ t).splitOnP p = pieces ++ [last ++ t] := by
  induction front with
  | nil => exact ⟨[], [], List.splitOnP_eq_singleton h⟩
  | cons c front ih =>
    obtain ⟨pieces, last, hSplit⟩ := ih
    rw [List.cons_append, List.splitOnP_cons_eq_if_modifyHead, hSplit]
    split
    · exact ⟨[] :: pieces, last, rfl⟩
    · cases pieces with
      | nil => exact ⟨[], c :: last, rfl⟩
      | cons piece pieces => exact ⟨(c :: piece) :: pieces, last, rfl⟩

theorem not_dots_of_colon {segment : Text} (h : ':' ∈ segment) : isSingleDot segment = false ∧ isDoubleDot segment = false := by
  have hColon : ':' ∈ toLowerAscii segment := List.mem_map.mpr ⟨':', h, rfl⟩
  constructor
  · refine decide_eq_false fun hDots => ?_
    simp only [List.mem_cons, List.not_mem_nil, or_false] at hDots
    obtain hDots | hDots := hDots <;> rw [hDots] at hColon <;> revert hColon <;> decide
  · refine decide_eq_false fun hDots => ?_
    simp only [List.mem_cons, List.not_mem_nil, or_false] at hDots
    obtain hDots | hDots | hDots | hDots := hDots <;> rw [hDots] at hColon <;> revert hColon <;> decide

theorem resolve_keeps {segment : Text} (h : ':' ∈ segment) (path segments : List Text) :
    ∃ path', resolve path (segments ++ [segment, []]) = path' ++ [percentEncode inPath segment, []] := by
  obtain ⟨hSingle, hDouble⟩ := not_dots_of_colon h
  induction segments generalizing path with
  | nil =>
    refine ⟨path, ?_⟩
    rw [List.nil_append, resolve, if_neg (by simp [hDouble]), if_neg (by simp [hSingle]), resolve,
      if_neg (by decide), if_neg (by decide), List.append_assoc]
    rfl
  | cons first segments ih =>
    obtain ⟨next, rest, hTail⟩ : ∃ next rest, segments ++ [segment, []] = next :: rest := by
      cases segments with
      | nil => exact ⟨segment, [[]], rfl⟩
      | cons next rest => exact ⟨next, rest ++ [segment, []], rfl⟩
    rw [List.cons_append, hTail, resolve, ← hTail]
    split
    · exact ih path.dropLast
    · split
      · exact ih path
      · exact ih (path ++ [percentEncode inPath first])

variable {front : Text}

theorem pathnameOf_ne (h : ∀ c ∈ t, isSlash c = false) (hColon : ':' ∈ t) (c : Char) : pathnameOf (c :: front ++ t ++ ['/']) ≠ ['/'] := by
  obtain ⟨pieces, last, hSplit⟩ := splitOnP_append h front
  have hSegments : segmentsOf (c :: front ++ t ++ ['/']) = pieces ++ [last ++ t, []] := by
    change (front ++ t ++ ['/']).splitOnP isSlash = _
    rw [List.splitOnP_append_cons _ _ (by decide), hSplit, List.splitOnP_nil, List.append_assoc]
    rfl
  obtain ⟨path, hPath⟩ := resolve_keeps (List.mem_append_right last hColon) [] pieces
  rw [pathnameOf, hSegments, hPath]
  intro hRoot
  have hLength := congrArg List.length hRoot
  simp only [List.flatMap_append, List.flatMap_cons, List.flatMap_nil, List.length_append, List.length_cons,
    List.length_nil] at hLength
  omega

structure Url.Bare (url : Url) : Prop where
  username : url.username = []
  password : url.password = []
  pathname : url.pathname = ['/']
  search : url.search = []
  hash : url.hash = []

variable {url : Url}

theorem Url.search_eq_nil {query : Text} (h : url.query = some query) (hSearch : url.search = []) : query = [] := by
  cases query with
  | nil => rfl
  | cons c query =>
    rw [Url.search, h] at hSearch
    cases hSearch

theorem Url.hash_eq_nil {fragment : Text} (h : url.fragment = some fragment) (hHash : url.hash = []) : fragment = [] := by
  cases fragment with
  | nil => rfl
  | cons c fragment =>
    rw [Url.hash, h] at hHash
    cases hHash

theorem more_of_dropWhile {more : Text} (h : (front ++ ['/']).dropWhile p = c :: more) (hc : c ≠ '/') : more ≠ [] := by
  rintro rfl
  obtain ⟨before, hBefore⟩ := List.dropWhile_suffix p (l := front ++ ['/'])
  rw [h] at hBefore
  have hLast := (List.append_inj' hBefore rfl).2
  exact hc (List.cons.inj hLast).1

theorem exists_dropWhile (h : ∃ c ∈ t, p c = false) : ∃ c more, t.dropWhile p = c :: more ∧ p c = false ∧ c ∈ t := by
  cases hDrop : t.dropWhile p with
  | nil =>
    obtain ⟨c, hc, hStop⟩ := h
    rw [List.dropWhile_eq_nil_iff.mp hDrop c hc] at hStop
    cases hStop
  | cons c more =>
    refine ⟨c, more, rfl, ?_, ?_⟩
    · have hHead := List.head_dropWhile_not p (by rw [hDrop]; exact List.cons_ne_nil _ _)
      simpa [hDrop] using hHead
    · exact (List.dropWhile_suffix p).subset (hDrop ▸ List.mem_cons_self)

theorem not_bare_of_rest {rest : Text} (hRest : rest = c :: front ++ t ++ ['/']) (hSlash : ∀ d ∈ t, isSlash d = false)
    (hColon : ':' ∈ t) (hPathname : url.pathname = pathnameOf (rest.takeWhile fun d => !endsPath d))
    (hQuery : url.query = queryOf rest) (hFragment : url.fragment = fragmentOf rest) : ¬ url.Bare := by
  intro hBare
  by_cases hHash : '#' ∈ rest
  · obtain ⟨d, more, hDrop, hd, -⟩ := exists_dropWhile (p := (· ≠ '#')) ⟨'#', hHash, by decide⟩
    have hIs : d = '#' := by simpa using hd
    rw [fragmentOf, hDrop] at hFragment
    have hMore := percentEncode_eq_nil.mp (Url.hash_eq_nil hFragment hBare.hash)
    rw [hRest] at hDrop
    exact more_of_dropWhile hDrop (by rw [hIs]; decide) hMore
  · by_cases hEnds : ∃ d ∈ rest, (!endsPath d) = false
    · obtain ⟨d, more, hDrop, hd, hMem⟩ := exists_dropWhile hEnds
      have hIs : d = '?' := by
        have hTwo : d = '?' ∨ d = '#' := by simpa [endsPath, or_iff_not_imp_left] using hd
        exact hTwo.resolve_right fun hIt => hHash (hIt ▸ hMem)
      rw [hIs] at hDrop
      rw [queryOf, afterPath, hDrop] at hQuery
      have hMore := percentEncode_eq_nil.mp (Url.search_eq_nil hQuery hBare.search)
      have hNone : ∀ e ∈ more, decide (e ≠ '#') = true := by
        intro e he
        refine decide_eq_true fun hIt => hHash ?_
        have hIn : e ∈ rest.dropWhile (fun d => !endsPath d) := by
          rw [hDrop]
          exact List.mem_cons_of_mem _ he
        exact hIt ▸ (List.dropWhile_suffix _).subset hIn
      rw [List.takeWhile_eq_self_iff.mpr hNone] at hMore
      rw [hRest] at hDrop
      exact more_of_dropWhile hDrop (by decide) hMore
    · have hAll : rest.takeWhile (fun d => !endsPath d) = rest := by
        refine List.takeWhile_eq_self_iff.mpr fun d hd => ?_
        by_contra hNot
        exact hEnds ⟨d, hd, by simpa using hNot⟩
      rw [hAll, hRest] at hPathname
      exact pathnameOf_ne hSlash hColon c (hPathname.symm.trans hBare.pathname)

def hostUrl (hostname : Text) (port : Nat) : Url where
  username := []
  password := []
  hostname
  port := portDigits port
  pathname := ['/']
  query := none
  fragment := none

theorem hostUrl_bare (hostname : Text) (port : Nat) : (hostUrl hostname port).Bare := ⟨rfl, rfl, rfl, rfl, rfl⟩

def portText (port : Nat) : Text := ':' :: portDigits port

def Plain (c : Char) : Prop := endsAuthority c = false ∧ c ≠ '@' ∧ isTabOrNewline c = false

theorem plain_of_class (hp : ∀ d ∈ ['/', '\\', '?', '#', '@', '\t', '\n', '\r'], p d = false) (h : p c = true) : Plain c := by
  have hNe : ∀ d ∈ ['/', '\\', '?', '#', '@', '\t', '\n', '\r'], c ≠ d := by
    rintro d hd rfl
    rw [hp c hd] at h
    contradiction
  refine ⟨?_, hNe '@' (by decide), ?_⟩
  · simp only [endsAuthority, isSlash, endsPath, decide_eq_false (hNe '/' (by decide)), decide_eq_false (hNe '\\' (by decide)),
      decide_eq_false (hNe '?' (by decide)), decide_eq_false (hNe '#' (by decide)), Bool.or_self]
  · simp only [isTabOrNewline, decide_eq_false (hNe '\t' (by decide)), decide_eq_false (hNe '\n' (by decide)),
      decide_eq_false (hNe '\r' (by decide)), Bool.or_self]

theorem portText_plain (h : c ∈ portText port) : Plain c := by
  refine plain_of_class (p := fun d => d.isDigit || d = ':') (by decide) ?_
  obtain rfl | hDigit := List.mem_cons.mp h
  · decide
  · rw [isDigit_of_mem_portDigits hDigit, Bool.true_or]

variable {hostname : Text}

section

variable {parseHost : Text → Option Text} {body : Text} {port : Nat} {url : Url}

theorem at_not_mem_portText : '@' ∉ portText port := fun h => (portText_plain h).2.1 rfl

theorem user_of_credentials (body : Text) {username password : Text}
    (hName : username = percentEncode inUserinfo (((splitCredentials body).1.getD []).takeWhile (· ≠ ':')))
    (hPassword : password = percentEncode inUserinfo ((((splitCredentials body).1.getD []).dropWhile (· ≠ ':')).drop 1))
    (hNoName : username = []) (hNoPassword : password = []) : ∃ user ∈ emptyUsers, body = user ++ (splitCredentials body).2 := by
  obtain ⟨hSplit, -⟩ | ⟨credentials, host, hSplit, hBody⟩ := splitCredentials_eq body
  · exact ⟨[], List.mem_cons_self, by rw [hSplit]; rfl⟩
  · rw [hSplit] at hName hPassword ⊢
    refine ⟨credentials ++ ['@'], emptyUser_of_encode (hName.symm.trans hNoName) (hPassword.symm.trans hNoPassword), ?_⟩
    rw [hBody, List.append_assoc]
    rfl

theorem parseAuthority_host (hPort : port ≤ 65535) (h : parseAuthority parseHost (body ++ portText port) ['/'] = some url)
    (hShown : url.port = portDigits port) (hBare : url.Bare) : port ≠ DEFAULT_PORT ∧
      ∃ user ∈ emptyUsers, ∃ host hostname, body = user ++ host ∧ parseHost host = some hostname ∧ url = hostUrl hostname port := by
  rw [parseAuthority, splitCredentials_append at_not_mem_portText] at h
  dsimp only at h
  have hCases : splitPort false ((splitCredentials body).2 ++ portText port) = ((splitCredentials body).2, some (portDigits port)) ∨
      ((splitPort false ((splitCredentials body).2 ++ portText port)).2 = none) ∨
      ∃ text, (splitPort false ((splitCredentials body).2 ++ portText port)).2 = some text ∧ ':' ∈ text := by
    rw [splitPort_append]
    cases hFirst : (splitPort false (splitCredentials body).2).2 with
    | some text => exact .inr (.inr ⟨text ++ portText port, rfl, List.mem_append_right _ List.mem_cons_self⟩)
    | none =>
      cases hInside : (splitCredentials body).2.foldl bracketState false with
      | false =>
        refine .inl ?_
        dsimp only
        rw [portText, splitPort, if_pos ⟨rfl, rfl⟩, List.append_nil]
      | true =>
        refine .inr (.inl ?_)
        dsimp only
        rw [portText, splitPort, if_neg (by decide), show bracketState true ':' = true from rfl,
          splitPort_digits fun c hc => isDigit_of_mem_portDigits hc]
  split at h
  · cases h
  obtain ⟨hostname, hHost, h⟩ := Option.bind_eq_some_iff.mp h
  obtain ⟨shown, hParse, h⟩ := Option.bind_eq_some_iff.mp h
  cases h
  obtain hSplit | hNone | ⟨text, hText, hColon⟩ := hCases
  · rw [hSplit] at hHost hParse
    rw [Option.getD_some, parsePort_portDigits hPort, Option.some_inj] at hParse
    have hOther : port ≠ DEFAULT_PORT := by
      intro hDefault
      rw [if_pos hDefault] at hParse
      exact portDigits_ne_nil port (hShown.symm.trans hParse.symm)
    obtain ⟨user, hUser, hBody⟩ := user_of_credentials body rfl rfl hBare.username hBare.password
    refine ⟨hOther, user, hUser, (splitCredentials body).2, hostname, hBody, hHost, ?_⟩
    have hName := hBare.username
    have hPassword := hBare.password
    dsimp only at hName hPassword hShown
    rw [hName, hPassword, hShown]
    rfl
  · rw [hNone, Option.getD_none, parsePort, if_pos rfl, Option.some_inj] at hParse
    exact absurd (hShown.symm.trans hParse.symm) (portDigits_ne_nil port)
  · rw [hText, Option.getD_some, parsePort_of_colon hColon] at hParse
    cases hParse

structure HostText (host : Text) : Prop where
  nonempty : host ≠ []
  closed : Closed host
  plain : ∀ c ∈ host, Plain c

theorem parseAuthority_of_host {user host : Text} (hUser : user ∈ emptyUsers) (hText : HostText host)
    (hHost : parseHost host = some hostname) (hPort : port ≤ 65535) (hOther : port ≠ DEFAULT_PORT) :
    parseAuthority parseHost (user ++ host ++ portText port) ['/'] = some (hostUrl hostname port) := by
  have hAt : '@' ∉ host := fun h => (hText.plain '@' h).2.1 rfl
  have hSplit : splitPort false (host ++ portText port) = (host, some (portDigits port)) := hText.closed.splitPort _
  have hUserSplit : ∃ credentials, splitCredentials (user ++ host) = (credentials, host) ∧
      (credentials.getD []).takeWhile (· ≠ ':') = [] ∧ ((credentials.getD []).dropWhile (· ≠ ':')).drop 1 = [] := by
    rw [splitCredentials_append hAt]
    simp only [emptyUsers, List.mem_cons, List.not_mem_nil, or_false] at hUser
    obtain rfl | rfl | rfl := hUser
    · exact ⟨none, rfl, rfl, rfl⟩
    · exact ⟨some [], rfl, rfl, rfl⟩
    · exact ⟨some [':'], rfl, rfl, rfl⟩
  obtain ⟨credentials, hCredentials, hName, hPassword⟩ := hUserSplit
  rw [parseAuthority, splitCredentials_append at_not_mem_portText, hCredentials]
  dsimp only
  rw [hSplit]
  dsimp only
  rw [if_neg hText.nonempty, hHost, Option.getD_some, parsePort_portDigits hPort, if_neg hOther, hName, hPassword]
  rfl

end

/-- `https://${t}:${port}/` -/
def targetText (t : Text) (port : Nat) : Text := SCHEME ++ '/' :: '/' :: (t ++ portText port ++ ['/'])

theorem stripEnds_target (t : Text) (port : Nat) : stripEnds (targetText t port) = targetText t port := by
  have hStart : (targetText t port).dropWhile isControlOrSpace = targetText t port := List.dropWhile_cons_of_neg (by decide)
  have hEnd : targetText t port = SCHEME ++ '/' :: '/' :: (t ++ portText port) ++ ['/'] := rfl
  rw [stripEnds, hStart, hEnd, List.rdropWhile_concat_neg _ _ _ (by decide)]

theorem filter_target (t : Text) (port : Nat) :
    (targetText t port).filter (fun c => !isTabOrNewline c) = targetText (t.filter fun c => !isTabOrNewline c) port := by
  have hPort : (portText port).filter (fun c => !isTabOrNewline c) = portText port :=
    List.filter_eq_self.mpr fun c hc => by rw [(portText_plain hc).2.2]; rfl
  have hFront : ∀ rest : Text, (SCHEME ++ '/' :: '/' :: rest).filter (fun c => !isTabOrNewline c) =
      SCHEME ++ '/' :: '/' :: rest.filter fun c => !isTabOrNewline c := fun _ => rfl
  rw [targetText, hFront, List.filter_append, List.filter_append, hPort]
  rfl

theorem dropWhile_slashes (t : Text) (port : Nat) :
    ('/' :: '/' :: (t ++ portText port ++ ['/'])).dropWhile isSlash = t.dropWhile isSlash ++ portText port ++ ['/'] := by
  rw [List.dropWhile_cons_of_pos (by decide), List.dropWhile_cons_of_pos (by decide), List.append_assoc, List.dropWhile_append]
  split
  · next hEmpty =>
    rw [List.isEmpty_iff.mp hEmpty]
    exact List.dropWhile_cons_of_neg (by decide)
  · rw [List.append_assoc]

variable {parseHost : Text → Option Text}

theorem parse_target (t : Text) (port : Nat) : parse parseHost (targetText t port) =
      let body := (t.filter fun c => !isTabOrNewline c).dropWhile isSlash ++ portText port ++ ['/']
      parseAuthority parseHost (body.takeWhile fun c => !endsAuthority c) (body.dropWhile fun c => !endsAuthority c) := by
  rw [parse, stripEnds_target, filter_target]
  dsimp only
  rw [targetText, if_pos (List.isPrefixOf_iff_prefix.mpr (List.prefix_append _ _)), List.drop_left, parseAfterScheme,
    dropWhile_slashes]

theorem parseAuthority_rest {authority rest : Text} (h : parseAuthority parseHost authority rest = some url) :
    url.pathname = pathnameOf (rest.takeWhile fun c => !endsPath c) ∧ url.query = queryOf rest ∧ url.fragment = fragmentOf rest := by
  rw [parseAuthority] at h
  dsimp only at h
  split at h
  · cases h
  · obtain ⟨hostname, -, h⟩ := Option.bind_eq_some_iff.mp h
    obtain ⟨port, -, h⟩ := Option.bind_eq_some_iff.mp h
    cases h
    exact ⟨rfl, rfl, rfl⟩

theorem portText_all (port : Nat) : ∀ c ∈ portText port, (!endsAuthority c) = true := by
  intro c hc
  rw [(portText_plain hc).1]
  rfl

structure Spelled (parseHost : Text → Option Text) (t host hostname : Text) : Prop where
  spelling : ∃ slashes : Text, ∃ user ∈ emptyUsers, (t.filter fun c => !isTabOrNewline c) = slashes ++ (user ++ host) ∧
    ∀ c ∈ slashes, isSlash c = true
  names : parseHost host = some hostname

theorem Spelled.body_eq {body : Text} (h : Spelled parseHost t body hostname) (hPlain : ∀ c ∈ t, Plain c) : body = t := by
  obtain ⟨slashes, user, hUser, hSpelling, hSlashes⟩ := h.spelling
  have hKept : (t.filter fun c => !isTabOrNewline c) = t := by
    refine List.filter_eq_self.mpr fun c hc => ?_
    rw [(hPlain c hc).2.2]
    rfl
  rw [hKept] at hSpelling
  have hNoSlashes : slashes = [] := by
    refine List.eq_nil_iff_forall_not_mem.mpr fun c hc => ?_
    have hMem : c ∈ t := hSpelling ▸ List.mem_append_left _ hc
    have hNot := (Bool.or_eq_false_iff.mp (hPlain c hMem).1).1
    rw [hSlashes c hc] at hNot
    contradiction
  have hNoAt : '@' ∉ user := fun hc =>
    (hPlain '@' (hSpelling ▸ List.mem_append_right _ (List.mem_append_left _ hc))).2.1 rfl
  have hNoUser : user = [] := by
    simp only [emptyUsers, List.mem_cons, List.not_mem_nil, or_false] at hUser
    obtain rfl | rfl | rfl := hUser
    · rfl
    · exact absurd List.mem_cons_self hNoAt
    · exact absurd (List.mem_cons_of_mem _ List.mem_cons_self) hNoAt
  rw [hSpelling, hNoSlashes, hNoUser]
  rfl

theorem spelled_of_bare (hPort : port ≤ 65535) (h : parse parseHost (targetText t port) = some url)
    (hShown : url.port = portDigits port) (hBare : url.Bare) :
    port ≠ DEFAULT_PORT ∧ ∃ host hostname, Spelled parseHost t host hostname ∧ url = hostUrl hostname port := by
  rw [parse_target] at h
  dsimp only at h
  set kept := t.filter fun c => !isTabOrNewline c with hKept
  by_cases hEnds : ∃ c ∈ kept.dropWhile isSlash, (!endsAuthority c) = false
  · obtain ⟨c, front, hDrop, -, -⟩ := exists_dropWhile hEnds
    have hRest : (kept.dropWhile isSlash ++ portText port ++ ['/']).dropWhile (fun c => !endsAuthority c) =
        c :: front ++ portText port ++ ['/'] := by
      rw [List.append_assoc, List.dropWhile_append, hDrop, if_neg (by simp), List.append_assoc]
    obtain ⟨hPathname, hQuery, hFragment⟩ := parseAuthority_rest h
    have hSlash : ∀ d ∈ portText port, isSlash d = false := fun d hd => (Bool.or_eq_false_iff.mp (portText_plain hd).1).1
    exact absurd hBare (not_bare_of_rest hRest hSlash List.mem_cons_self hPathname hQuery hFragment)
  · have hAll : ∀ c ∈ kept.dropWhile isSlash ++ portText port, (!endsAuthority c) = true := by
      intro c hc
      obtain hc | hc := List.mem_append.mp hc
      · by_contra hNot
        exact hEnds ⟨c, hc, by simpa using hNot⟩
      · exact portText_all port c hc
    rw [List.takeWhile_append_of_pos hAll, List.dropWhile_append_of_pos hAll, List.takeWhile_cons_of_neg (by decide),
      List.dropWhile_cons_of_neg (by decide), List.append_nil] at h
    obtain ⟨hOther, user, hUser, host, hostname, hBody, hHost, hUrl⟩ := parseAuthority_host hPort h hShown hBare
    refine ⟨hOther, host, hostname, ⟨⟨kept.takeWhile isSlash, user, hUser, ?_, ?_⟩, hHost⟩, hUrl⟩
    · rw [← hBody, List.takeWhile_append_dropWhile]
    · exact fun c hc => List.mem_takeWhile_imp hc

theorem parse_of_spelled {host : Text} (hText : HostText host) (hSpelled : Spelled parseHost t host hostname)
    (hPort : port ≤ 65535) (hOther : port ≠ DEFAULT_PORT) : parse parseHost (targetText t port) = some (hostUrl hostname port) := by
  obtain ⟨⟨slashes, user, hUser, hSpelling, hSlashes⟩, hHost⟩ := hSpelled
  have hFirst : (user ++ host).dropWhile isSlash = user ++ host := by
    obtain ⟨c, rest, hCons⟩ := List.exists_cons_of_ne_nil hText.nonempty
    have hc : isSlash c = false := (Bool.or_eq_false_iff.mp (hText.plain c (hCons ▸ List.mem_cons_self)).1).1
    simp only [emptyUsers, List.mem_cons, List.not_mem_nil, or_false] at hUser
    obtain rfl | rfl | rfl := hUser
    · rw [List.nil_append, hCons]
      exact List.dropWhile_cons_of_neg (by simp [hc])
    · exact List.dropWhile_cons_of_neg (by decide)
    · exact List.dropWhile_cons_of_neg (by decide)
  have hUserPlain : ∀ c ∈ user, (!endsAuthority c) = true := by
    simp only [emptyUsers, List.mem_cons, List.not_mem_nil, or_false] at hUser
    obtain rfl | rfl | rfl := hUser <;> decide
  have hAll : ∀ c ∈ user ++ host ++ portText port, (!endsAuthority c) = true := by
    intro c hc
    obtain hc | hc := List.mem_append.mp hc
    · obtain hc | hc := List.mem_append.mp hc
      · exact hUserPlain c hc
      · rw [(hText.plain c hc).1]
        rfl
    · exact portText_all port c hc
  rw [parse_target, hSpelling, List.dropWhile_append_of_pos hSlashes, hFirst]
  dsimp only
  rw [List.takeWhile_append_of_pos hAll, List.dropWhile_append_of_pos hAll, List.takeWhile_cons_of_neg (by decide),
    List.dropWhile_cons_of_neg (by decide), List.append_nil]
  exact parseAuthority_of_host hUser hText hHost hPort hOther

end Library.HttpsUrl
