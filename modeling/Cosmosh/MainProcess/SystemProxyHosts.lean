import Mathlib.Data.Rat.Cast.Order
import Cosmosh.MainProcess.SystemProxyTarget

/-! # Which targets are the host and the port that were asked for

Comparing the fields of the parsed URL keeps out users, paths, queries and fragments.
-/

namespace MainProcess

open Library Library.JsText Library.HttpsUrl

variable {t : Text}

theorem closed_of_plain (h : ∀ c ∈ t, c ≠ ':' ∧ c ≠ '[' ∧ c ≠ ']') : Closed t := by
  induction t with
  | nil => exact ⟨rfl, rfl⟩
  | cons c t ih =>
    obtain ⟨⟨hColon, hOpen, hClose⟩, hRest⟩ := List.forall_mem_cons.mp h
    have hState : bracketState false c = false := by rw [bracketState, if_neg hOpen, if_neg hClose]
    refine ⟨?_, ?_⟩
    · rw [splitPort, if_neg (fun hIt => hColon hIt.1), hState]
      exact (ih hRest).port
    · rw [List.foldl_cons, hState]
      exact (ih hRest).brackets

theorem closed_in_brackets (h : ∀ c ∈ t, c ≠ '[' ∧ c ≠ ']') : Closed ('[' :: t ++ [']']) := by
  have hInside : (splitPort true (t ++ [']'])).2 = none ∧ (t ++ [']']).foldl bracketState true = false := by
    induction t with
    | nil => exact ⟨rfl, rfl⟩
    | cons c t ih =>
      obtain ⟨⟨hOpen, hClose⟩, hRest⟩ := List.forall_mem_cons.mp h
      have hState : bracketState true c = true := by rw [bracketState, if_neg hOpen, if_neg hClose]
      obtain ⟨hPort, hBrackets⟩ := ih hRest
      refine ⟨?_, ?_⟩
      · rw [List.cons_append, splitPort, if_neg (by simp), hState]
        exact hPort
      · rw [List.cons_append, List.foldl_cons, hState]
        exact hBrackets
  refine ⟨?_, ?_⟩
  · rw [List.cons_append, splitPort, if_neg (by decide)]
    exact hInside.1
  · exact hInside.2

theorem plain_in_brackets (h : ∀ c ∈ t, Plain c) : ∀ c ∈ '[' :: t ++ [']'], Plain c := by
  intro c hc
  obtain hc | hc := List.mem_append.mp hc
  · obtain rfl | hc := List.mem_cons.mp hc
    · exact ⟨by decide, by decide, by decide⟩
    · exact h c hc
  · rw [List.mem_singleton.mp hc]
    exact ⟨by decide, by decide, by decide⟩

variable {c : Char}

theorem not_forbidden_plain (h : c ∉ FORBIDDEN) : Plain c ∧ c ≠ ':' ∧ c ≠ '[' ∧ c ≠ ']' := by
  have hNe : ∀ d ∈ FORBIDDEN, c ≠ d := fun d hd hIt => h (hIt ▸ hd)
  exact ⟨plain_of_class (p := fun d => d ∉ FORBIDDEN) (by decide) (decide_eq_true h), hNe ':' (by decide), hNe '[' (by decide),
    hNe ']' (by decide)⟩

theorem isAddressChar_plain (h : isAddressChar c = true) : Plain c ∧ c ≠ '[' ∧ c ≠ ']' := by
  have hNe : ∀ d, isAddressChar d = false → c ≠ d := by
    rintro d hd rfl
    rw [h] at hd
    contradiction
  exact ⟨plain_of_class (by decide) h, hNe '[' (by decide), hNe ']' (by decide)⟩

theorem parseHost_brackets (platform : HostPlatform) (inner : Text) :
    platform.parseHost ('[' :: inner ++ [']']) = (platform.ipv6Of inner).map fun address => '[' :: address ++ [']'] := by
  have hOpen : ('[' :: inner ++ [']']).head? = some '[' := rfl
  rw [HostPlatform.parseHost, if_pos hOpen, if_pos List.getLast?_concat, List.cons_append, List.tail_cons, List.dropLast_concat]

variable {hostname : Text} {port : Nat}

section

variable {platform : HostPlatform} {isALabel : Text → Bool} (hPlatform : platform.Documented isALabel)

include hPlatform

section

variable (h : platform.parseHost t = some hostname)
include h

theorem parseHost_cases : (platform.domainOf t = some hostname ∧ ∀ c ∈ t, c ∉ FORBIDDEN) ∨
      ∃ inner address, t = '[' :: inner ++ [']'] ∧ platform.ipv6Of inner = some address ∧ hostname = '[' :: address ++ [']'] := by
  rw [HostPlatform.parseHost] at h
  split at h
  · next hOpen =>
    split at h
    · next hClose =>
      obtain ⟨address, hAddress, rfl⟩ := Option.map_eq_some_iff.mp h
      refine .inr ⟨t.tail.dropLast, address, ?_, hAddress, rfl⟩
      cases t with
      | nil => cases hOpen
      | cons c t =>
        cases hOpen
        cases t using List.reverseRecOn with
        | nil => cases hClose
        | append_singleton t d =>
          rw [← List.cons_append, List.getLast?_concat] at hClose
          cases hClose
          rw [List.tail_cons, List.dropLast_concat]
          rfl
    · cases h
  · exact .inl ⟨h, hPlatform.domain_plain t hostname h⟩

theorem hostText_of_parseHost : HostText t := by
  obtain ⟨hDomain, hPlain⟩ | ⟨inner, address, rfl, hAddress, rfl⟩ := parseHost_cases hPlatform h
  · refine ⟨?_, closed_of_plain fun c hc => (not_forbidden_plain (hPlain c hc)).2, fun c hc => (not_forbidden_plain (hPlain c hc)).1⟩
    rintro rfl
    rw [hPlatform.domain_nonempty] at hDomain
    cases hDomain
  · have hChars := (hPlatform.ipv6_plain inner address hAddress).2.2
    exact ⟨List.cons_ne_nil _ _, closed_in_brackets fun c hc => (isAddressChar_plain (hChars c hc)).2,
      plain_in_brackets fun c hc => (isAddressChar_plain (hChars c hc)).1⟩

theorem parseHost_stable : platform.parseHost hostname = some hostname := by
  obtain ⟨hDomain, -⟩ | ⟨inner, address, rfl, hAddress, rfl⟩ := parseHost_cases hPlatform h
  · have hStable := hPlatform.domain_stable t hostname hDomain
    rw [HostPlatform.parseHost, if_neg ?_]
    · exact hStable
    · intro hOpen
      refine hPlatform.domain_plain _ _ hStable '[' (List.mem_of_mem_head? hOpen) (by decide)
  · rw [parseHost_brackets, hPlatform.ipv6_stable inner address hAddress]
    rfl

theorem spelled_self : Spelled platform.parseHost t t hostname := by
  have hKept : (t.filter fun c => !isTabOrNewline c) = t := by
    refine List.filter_eq_self.mpr fun c hc => ?_
    rw [((hostText_of_parseHost hPlatform h).plain c hc).2.2]
    rfl
  exact ⟨⟨[], [], List.mem_cons_self, hKept, fun c hc => absurd hc List.not_mem_nil⟩, h⟩

theorem parse_hostUrl (hPort : port ≤ 65535) (hOther : port ≠ DEFAULT_PORT) :
    parse platform.parseHost (hostUrl hostname port).href = some (hostUrl hostname port) := by
  have hStable := parseHost_stable hPlatform h
  have hText : (hostUrl hostname port).href = targetText hostname port := by
    have hShown : (hostUrl hostname port).port ≠ [] := portDigits_ne_nil port
    rw [Url.href, if_pos ⟨rfl, rfl⟩, if_neg hShown]
    simp only [hostUrl, targetText, portText, List.append_nil, List.append_assoc, Option.map_none, Option.getD_none]
    rfl
  rw [hText]
  exact parse_of_spelled (hostText_of_parseHost hPlatform hStable) (spelled_self hPlatform hStable) hPort hOther

end

end

theorem portNumber_range {payload : SystemProxyResolveRequest} (h : payload.portNumber = some port) :
    payload.port = some (.finite port) ∧ 1 ≤ port ∧ port ≤ 65535 := by
  rw [SystemProxyResolveRequest.portNumber] at h
  cases hValue : payload.port with
  | none => simp [hValue] at h
  | some value =>
    rw [hValue] at h
    dsimp only at h
    split at h
    · cases h
    · next hRange =>
      cases h
      simp only [not_or, Rat.not_lt, Bool.not_eq_false] at hRange
      obtain ⟨hInteger, hLow, hHigh⟩ := hRange
      cases value with
      | finite q =>
        have hNum : (q.num : Rat) = q := (Rat.den_eq_one_iff q).mp (of_decide_eq_true hInteger)
        have hOne : (1 : Int) ≤ q.num := by
          have hCast : ((1 : Int) : Rat) ≤ q.num := hNum.symm ▸ hLow
          exact_mod_cast hCast
        have hMax : q.num ≤ (65535 : Int) := by
          have hCast : (q.num : Rat) ≤ ((65535 : Int) : Rat) := hNum.symm ▸ hHigh
          exact_mod_cast hCast
        have hCast : ((q.num.toNat : Nat) : Rat) = q := by
          have hInt : ((q.num.toNat : Nat) : Int) = q.num := Int.toNat_of_nonneg (by omega)
          calc ((q.num.toNat : Nat) : Rat) = ((q.num.toNat : Int) : Rat) := rfl
            _ = (q.num : Rat) := by rw [hInt]
            _ = q := hNum
        rw [JsNumber.toNat]
        exact ⟨by rw [hCast], by omega, by omega⟩
      | infinity positive => cases hInteger
      | nan => cases hInteger

theorem portNumber_of_range {payload : SystemProxyResolveRequest} (h : payload.port = some (.finite port)) (hLow : 1 ≤ port)
    (hHigh : port ≤ 65535) : payload.portNumber = some port := by
  have hOne : (1 : Rat) ≤ port := by exact_mod_cast hLow
  have hMax : (port : Rat) ≤ 65535 := by exact_mod_cast hHigh
  rw [SystemProxyResolveRequest.portNumber, h]
  dsimp only
  rw [if_neg]
  · rfl
  · simp only [not_or, Rat.not_lt, Bool.not_eq_false]
    exact ⟨rfl, hOne, hMax⟩

section

variable {platform : HostPlatform} {payload : SystemProxyResolveRequest} {url : Text}

theorem buildSystemProxyTargetUrl_ok (h : buildSystemProxyTargetUrl platform (some payload) = .ok url) :
    ∃ port targetUrl, payload.portNumber = some port ∧ payload.hostText ≠ [] ∧ utf16Length payload.hostText ≤ 255 ∧
      parse platform.parseHost (targetText (normalizedHost platform payload.hostText) port) = some targetUrl ∧
      targetUrl.port = portDigits port ∧ targetUrl.Bare ∧ url = targetUrl.href := by
  simp only [buildSystemProxyTargetUrl] at h
  split at h
  · cases h
  · next port hPort =>
    split at h
    · cases h
    · next hText =>
      obtain ⟨hNonempty, hLength⟩ := not_or.mp hText
      split at h
      · cases h
      · next targetUrl hParse =>
        split at h
        · cases h
        · next hFields =>
          cases h
          simp only [not_or, not_not] at hFields
          obtain ⟨hShown, hPathname, hUsername, hPassword, hSearch, hHash⟩ := hFields
          exact ⟨port, targetUrl, hPort, hNonempty, by omega, hParse, hShown, ⟨hUsername, hPassword, hPathname, hSearch, hHash⟩, rfl⟩

theorem buildSystemProxyTargetUrl_of_parse {targetUrl : Url} (hPort : payload.portNumber = some port)
    (hNonempty : payload.hostText ≠ []) (hLength : utf16Length payload.hostText ≤ 255)
    (hParse : parse platform.parseHost (targetText (normalizedHost platform payload.hostText) port) = some targetUrl)
    (hShown : targetUrl.port = portDigits port) (hBare : targetUrl.Bare) :
    buildSystemProxyTargetUrl platform (some payload) = .ok targetUrl.href := by
  simp only [buildSystemProxyTargetUrl]
  rw [hPort]
  dsimp only
  rw [if_neg (not_or.mpr ⟨hNonempty, by omega⟩), hParse]
  dsimp only
  rw [if_neg]
  simp only [not_or, not_not]
  exact ⟨hShown, hBare.pathname, hBare.username, hBare.password, hBare.search, hBare.hash⟩

end

def isDottedChar (c : Char) : Bool := isNameChar c || c = '.'

theorem isDottedChar_graphic (h : isDottedChar c = true) : IsGraphic c := by
  simp only [isDottedChar, isNameChar, Bool.or_eq_true, decide_eq_true_eq] at h
  obtain ((hAlphanum | rfl) | rfl) | rfl := h
  · exact isAlphanum_graphic hAlphanum
  · exact ⟨by decide, by decide⟩
  · exact ⟨by decide, by decide⟩
  · exact ⟨by decide, by decide⟩

theorem forall_mem_intercalate {p : Char → Prop} (hDot : p '.') {labels : List Text} (h : ∀ label ∈ labels, ∀ c ∈ label, p c) :
    ∀ c ∈ List.intercalate ['.'] labels, p c := by
  induction labels with
  | nil => exact fun c hc => absurd hc List.not_mem_nil
  | cons label labels ih =>
    obtain ⟨hLabel, hRest⟩ := List.forall_mem_cons.mp h
    cases labels with
    | nil => simpa using hLabel
    | cons next labels =>
      intro c hc
      rw [List.intercalate_cons_cons] at hc
      obtain hc | hc := List.mem_append.mp hc
      · obtain hc | hc := List.mem_append.mp hc
        · exact hLabel c hc
        · exact List.mem_singleton.mp hc ▸ hDot
      · exact ih hRest c hc

theorem IsDnsName.dotted {isALabel : Text → Bool} (h : IsDnsName isALabel t) : ∀ c ∈ t, isDottedChar c = true := by
  obtain ⟨labels, -, hText, hLabels, -⟩ := h.spelling
  have hChars := forall_mem_intercalate (p := (isDottedChar · = true)) rfl fun label hLabel c hc => by
    rw [isDottedChar, (hLabels label hLabel).2.2 c hc, Bool.true_or]
  obtain rfl | rfl := hText
  · exact hChars
  · intro c hc
    obtain hc | hc := List.mem_append.mp hc
    · exact hChars c hc
    · rw [List.mem_singleton.mp hc]
      decide

theorem IsIpv4.chars (h : IsIpv4 t) : ∀ c ∈ t, c.isDigit = true ∨ c = '.' := by
  obtain ⟨a, b, c, d, rfl⟩ := h.octets
  refine forall_mem_intercalate (.inr rfl) fun label hLabel e he => ?_
  have hDigits : ∃ n, label = portDigits n := by
    simp only [List.mem_cons, List.not_mem_nil, or_false] at hLabel
    obtain rfl | rfl | rfl | rfl := hLabel
    · exact ⟨a, rfl⟩
    · exact ⟨b, rfl⟩
    · exact ⟨c, rfl⟩
    · exact ⟨d, rfl⟩
  obtain ⟨n, rfl⟩ := hDigits
  exact .inl (isDigit_of_mem_portDigits he)

theorem IsIpv4.dotted (h : IsIpv4 t) : ∀ c ∈ t, isDottedChar c = true := by
  intro c hc
  obtain hDigit | rfl := h.chars c hc
  · rw [isDottedChar, isNameChar, Char.isAlphanum, hDigit, Bool.or_true]
    rfl
  · rfl

theorem IsIpv4.length (h : IsIpv4 t) : t.length ≤ 15 := by
  obtain ⟨a, b, c, d, rfl⟩ := h.octets
  have hOctet : ∀ n : Fin 256, (portDigits n).length ≤ 3 := fun n =>
    (Nat.length_toDigits_le_iff (by decide) (by decide)).mpr (Nat.lt_trans n.isLt (by decide))
  have hA := hOctet a
  have hB := hOctet b
  have hC := hOctet c
  have hD := hOctet d
  simp only [List.intercalate_cons_cons, List.intercalate_singleton, List.length_append, List.length_cons, List.length_nil]
  omega

theorem isAddressChar_graphic (h : isAddressChar c = true) : IsGraphic c := by
  simp only [isAddressChar, isHexDigit, Bool.or_eq_true, decide_eq_true_eq] at h
  obtain ((hDigit | hLetter) | rfl) | rfl := h
  · exact isAlphanum_graphic (by rw [Char.isAlphanum, hDigit, Bool.or_true])
  · have hEvery : ∀ d ∈ "abcdefABCDEF".toList, d.isAlphanum = true := by decide
    exact isAlphanum_graphic (hEvery c hLetter)
  · exact ⟨by decide, by decide⟩
  · exact ⟨by decide, by decide⟩

variable {host : Text}

theorem parseHost_of_dotted {platform : HostPlatform} (h : ∀ c ∈ host, isDottedChar c = true) :
    platform.parseHost host = platform.domainOf host := by
  refine if_neg fun hOpen => ?_
  have hBracket := h '[' (List.mem_of_mem_head? hOpen)
  revert hBracket
  decide

section

variable {platform : HostPlatform} {isALabel : Text → Bool} (hPlatform : platform.Documented isALabel)

include hPlatform

theorem colon_of_isIP (h : platform.isIP host = 6) : ':' ∈ host := by
  obtain ⟨address, zone, rfl, hAddress, -⟩ := hPlatform.isIP_ipv6 host h
  obtain ⟨normal, hNormal⟩ := Option.isSome_iff_exists.mp hAddress
  exact List.mem_append_left _ (hPlatform.ipv6_plain address normal hNormal).1

theorem normalizedHost_of_dotted (h : ∀ c ∈ host, isDottedChar c = true) : normalizedHost platform host = host := by
  refine if_neg fun hIP => ?_
  have hColon := h ':' (colon_of_isIP hPlatform hIP)
  revert hColon
  decide

theorem Spells.parses {normal : Text} (h : Spells platform isALabel host normal) :
    platform.parseHost (normalizedHost platform host) = some normal ∧ (∀ c ∈ host, IsGraphic c) ∧ host.length ≤ 255 := by
  cases h with
  | dns h =>
    rw [normalizedHost_of_dotted hPlatform h.dotted, parseHost_of_dotted h.dotted]
    have hLength := h.length
    exact ⟨hPlatform.domain_name host h, fun c hc => isDottedChar_graphic (h.dotted c hc), by omega⟩
  | ipv4 h =>
    rw [normalizedHost_of_dotted hPlatform h.dotted, parseHost_of_dotted h.dotted]
    have hLength := h.length
    exact ⟨hPlatform.domain_ipv4 host h, fun c hc => isDottedChar_graphic (h.dotted c hc), by omega⟩
  | ipv6 hIP hZone hAddress =>
    obtain ⟨-, hLength, hChars⟩ := hPlatform.ipv6_plain host _ hAddress
    rw [normalizedHost, if_pos hIP, parseHost_brackets, hAddress]
    exact ⟨rfl, fun c hc => isAddressChar_graphic (hChars c hc), by omega⟩

theorem Spells.nonempty {normal : Text} (h : Spells platform isALabel host normal) : host ≠ [] := by
  rintro rfl
  have hParse := (h.parses hPlatform).1
  rw [normalizedHost_of_dotted hPlatform fun c hc => absurd hc List.not_mem_nil] at hParse
  exact (hostText_of_parseHost hPlatform hParse).nonempty rfl

theorem nonempty_of_spelled {body : Text} (h : Spelled platform.parseHost t body hostname) : t ≠ [] := by
  rintro rfl
  obtain ⟨slashes, user, -, hSpelling, -⟩ := h.spelling
  rw [List.filter_nil, eq_comm, List.append_eq_nil_iff, List.append_eq_nil_iff] at hSpelling
  exact (hostText_of_parseHost hPlatform h.names).nonempty hSpelling.2.2

end

section

variable (platform : HostPlatform) (isALabel : Text → Bool) (payload : SystemProxyResolveRequest)

def ReachesPlainHost : Prop :=
  ∀ host normal port, payload.host = some host → Spells platform isALabel host normal → payload.port = some (.finite (port : Nat)) →
    1 ≤ port → port ≤ 65535 → ∃ url targetUrl, buildSystemProxyTargetUrl platform (some payload) = .ok url ∧
      parse platform.parseHost url = some targetUrl ∧ targetUrl.hostname = normal ∧ targetUrl.effectivePort = port

def NamesItsHost : Prop :=
  ∀ url, buildSystemProxyTargetUrl platform (some payload) = .ok url → ∃ targetUrl,
    parse platform.parseHost url = some targetUrl ∧ targetUrl.Bare ∧
      hostNamed platform payload.hostText = some targetUrl.hostname

end

section

variable {platform : HostPlatform} {isALabel : Text → Bool} (hPlatform : platform.Documented isALabel)
  (payload : SystemProxyResolveRequest)

include hPlatform

theorem built_spells {url : Text} (h : buildSystemProxyTargetUrl platform (some payload) = .ok url) :
    ∃ port body hostname, payload.portNumber = some port ∧ port ≠ DEFAULT_PORT ∧ utf16Length payload.hostText ≤ 255 ∧
      Spelled platform.parseHost (normalizedHost platform payload.hostText) body hostname ∧
      parse platform.parseHost url = some (hostUrl hostname port) := by
  obtain ⟨port, targetUrl, hPort, -, hLength, hParse, hShown, hBare, rfl⟩ := buildSystemProxyTargetUrl_ok h
  obtain ⟨-, -, hMax⟩ := portNumber_range hPort
  obtain ⟨hOther, body, hostname, hSpelled, rfl⟩ := spelled_of_bare hMax hParse hShown hBare
  exact ⟨port, body, hostname, hPort, hOther, hLength, hSpelled, parse_hostUrl hPlatform hSpelled.names hMax hOther⟩

theorem build_of_spelled {body : Text} (hPort : payload.portNumber = some port) (hOther : port ≠ DEFAULT_PORT)
    (hNonempty : payload.hostText ≠ []) (hLength : utf16Length payload.hostText ≤ 255)
    (hSpelled : Spelled platform.parseHost (normalizedHost platform payload.hostText) body hostname) :
    buildSystemProxyTargetUrl platform (some payload) = .ok (hostUrl hostname port).href :=
  buildSystemProxyTargetUrl_of_parse hPort hNonempty hLength
    (parse_of_spelled (hostText_of_parseHost hPlatform hSpelled.names) hSpelled (portNumber_range hPort).2.2 hOther) rfl
    (hostUrl_bare hostname port)

theorem reachesPlainHost_iff : ReachesPlainHost platform isALabel payload ↔
      ∀ host normal, payload.host = some host → Spells platform isALabel host normal → payload.port ≠ some (.finite DEFAULT_PORT) := by
  constructor
  · intro hReaches host normal hHost hSpells hDefault
    obtain ⟨url, -, hBuilt, -⟩ := hReaches host normal DEFAULT_PORT hHost hSpells hDefault (by decide) (by decide)
    obtain ⟨port, -, -, hPort, hOther, -⟩ := built_spells hPlatform payload hBuilt
    rw [portNumber_of_range hDefault (by decide) (by decide)] at hPort
    exact hOther (Option.some.inj hPort).symm
  · intro hOther host normal port hHost hSpells hPort hLow hHigh
    obtain ⟨hParse, hGraphic, hLength⟩ := hSpells.parses hPlatform
    have hText : payload.hostText = host := by
      rw [SystemProxyResolveRequest.hostText, hHost]
      exact trim_of_no_whitespace fun c hc => isWhitespace_of_graphic (hGraphic c hc)
    have hNotDefault : port ≠ DEFAULT_PORT := by
      rintro rfl
      exact hOther host normal hHost hSpells hPort
    have hBuilt := build_of_spelled hPlatform payload (portNumber_of_range hPort hLow hHigh) hNotDefault
      (hText ▸ hSpells.nonempty hPlatform) (by rw [hText, utf16Length_of_graphic hGraphic]; exact hLength)
      (hText ▸ spelled_self hPlatform hParse)
    refine ⟨_, hostUrl normal port, hBuilt, parse_hostUrl hPlatform hParse hHigh hNotDefault, rfl, ?_⟩
    have hShown : (hostUrl normal port).port ≠ [] := portDigits_ne_nil port
    rw [Url.effectivePort, if_neg hShown]
    exact Nat.ofDigitChars_ten_toDigits

theorem hostNamed_of_spelled {body : Text} (h : Spelled platform.parseHost (normalizedHost platform host) body hostname)
    (hPlain : ¬ Disguised platform host) : hostNamed platform host = some hostname := by
  by_cases hIP : platform.isIP host = 6
  · rw [normalizedHost, if_pos hIP] at h
    rw [hostNamed, if_pos hIP]
    obtain ⟨address, zone, hHost, hAddress, hZone⟩ := hPlatform.isIP_ipv6 host hIP
    obtain ⟨normal, hNormal⟩ := Option.isSome_iff_exists.mp hAddress
    have hChars : ∀ c ∈ host, Plain c := by
      intro c hc
      rw [hHost] at hc
      obtain hc | hc := List.mem_append.mp hc
      · exact (isAddressChar_plain ((hPlatform.ipv6_plain address normal hNormal).2.2 c hc)).1
      · obtain rfl | ⟨name, rfl, hName⟩ := hZone
        · cases hc
        · obtain rfl | hc := List.mem_cons.mp hc
          · exact ⟨by decide, by decide, by decide⟩
          · exact plain_of_class (by decide) (hName c hc)
    have hBody : body = '[' :: host ++ [']'] := h.body_eq (plain_in_brackets hChars)
    rw [← parseHost_brackets, ← hBody]
    exact h.names
  · rw [normalizedHost, if_neg hIP] at h
    have hSame : body = host ∧ '%' ∉ host := by
      by_contra hNot
      exact hPlain ⟨hIP, body, hostname, h, not_and_or.mp hNot |>.imp_right not_not.mp⟩
    rw [hostNamed, if_neg hIP, if_neg hSame.2, ← hSame.1]
    exact h.names

theorem namesItsHost_iff : NamesItsHost platform payload ↔ ∀ port, payload.portNumber = some port →
        port = DEFAULT_PORT ∨ 255 < utf16Length payload.hostText ∨ ¬ Disguised platform payload.hostText := by
  constructor
  · intro hNames port hPort
    by_contra hNot
    simp only [not_or, not_lt, not_not] at hNot
    obtain ⟨hOther, hLength, hIP, body, hostname, hSpelled, hHidden⟩ := hNot
    have hHost : normalizedHost platform payload.hostText = payload.hostText := if_neg hIP
    obtain ⟨targetUrl, -, -, hNamed⟩ := hNames _
      (build_of_spelled hPlatform payload hPort hOther (nonempty_of_spelled hPlatform hSpelled) hLength (hHost.symm ▸ hSpelled))
    rw [hostNamed, if_neg hIP] at hNamed
    split at hNamed
    · cases hNamed
    · next hPercent =>
      have hBody := hSpelled.body_eq (hostText_of_parseHost hPlatform hNamed).plain
      exact hHidden.elim (fun hNe => hNe hBody) hPercent
  · intro hCondition url hBuilt
    obtain ⟨port, body, hostname, hPort, hOther, hLength, hSpelled, hParse⟩ := built_spells hPlatform payload hBuilt
    have hPlain : ¬ Disguised platform payload.hostText := ((hCondition port hPort).resolve_left hOther).resolve_left (Nat.not_lt.mpr hLength)
    exact ⟨hostUrl hostname port, hParse, hostUrl_bare hostname port, hostNamed_of_spelled hPlatform hSpelled hPlain⟩

theorem system_proxy_target_is_exact_iff : ReachesPlainHost platform isALabel payload ∧ NamesItsHost platform payload ↔
      (∀ host normal, payload.host = some host → Spells platform isALabel host normal → payload.port ≠ some (.finite DEFAULT_PORT)) ∧
      ∀ port, payload.portNumber = some port →
        port = DEFAULT_PORT ∨ 255 < utf16Length payload.hostText ∨ ¬ Disguised platform payload.hostText :=
  and_congr (reachesPlainHost_iff hPlatform payload) (namesItsHost_iff hPlatform payload)

end

def namePlatform : HostPlatform where
  domainOf t := if t ≠ [] ∧ ∀ c ∈ t, isDottedChar c = true then some (toLowerAscii t) else none
  ipv6Of t := if t = [':', ':', '1'] then some t else none
  isIP t := if t = [':', ':', '1'] then 6 else 0

theorem toLower_of_dotted (h : isDottedChar c = true) :
    isDottedChar c.toLower = true ∧ c.toLower.toLower = c.toLower ∧ (c.isDigit = true ∨ c = '.' → c.toLower = c) := by
  have hEvery : ∀ n : Fin 128, isDottedChar (Char.ofNat n) = true →
      isDottedChar (Char.ofNat n).toLower = true ∧ (Char.ofNat n).toLower.toLower = (Char.ofNat n).toLower ∧
        ((Char.ofNat n).isDigit = true ∨ Char.ofNat n = '.' → (Char.ofNat n).toLower = Char.ofNat n) := by decide
  have hSmall : c.toNat < 128 := Nat.lt_trans (isDottedChar_graphic h).2 (by decide)
  have hChar := hEvery ⟨c.toNat, hSmall⟩
  rw [Char.ofNat_toNat] at hChar
  exact hChar h

theorem domainOf_dotted (hNonempty : t ≠ []) (h : ∀ c ∈ t, isDottedChar c = true) :
    namePlatform.domainOf t = some (toLowerAscii t) := if_pos ⟨hNonempty, h⟩

theorem namePlatform_documented : namePlatform.Documented fun _ => false where
  domain_nonempty := rfl
  domain_plain := by
    intro t name h c hc hMem
    obtain ⟨⟨-, hChars⟩, -⟩ := Option.ite_none_right_eq_some.mp h
    have hEvery : ∀ d ∈ FORBIDDEN, isDottedChar d = false := by decide
    have hDotted := hChars c hc
    rw [hEvery c hMem] at hDotted
    contradiction
  domain_stable := by
    intro t name h
    obtain ⟨⟨hNonempty, hChars⟩, hName⟩ := Option.ite_none_right_eq_some.mp h
    cases hName
    have hLower : ∀ c ∈ toLowerAscii t, isDottedChar c = true := by
      intro c hc
      obtain ⟨d, hd, rfl⟩ := List.mem_map.mp hc
      exact (toLower_of_dotted (hChars d hd)).1
    have hLowerNonempty : toLowerAscii t ≠ [] := mt List.map_eq_nil_iff.mp hNonempty
    rw [domainOf_dotted hLowerNonempty hLower, toLowerAscii, toLowerAscii, List.map_map]
    exact congrArg some (List.map_congr_left fun c hc => (toLower_of_dotted (hChars c hc)).2.1)
  domain_name := by
    intro t h
    refine domainOf_dotted ?_ h.dotted
    rintro rfl
    obtain ⟨labels, hSome, hText, hLabels, -⟩ := h.spelling
    cases labels with
    | nil => exact hSome rfl
    | cons label labels =>
      have hLabel := (hLabels label List.mem_cons_self).1
      cases labels with
      | nil => simp [List.intercalate_singleton, hLabel.symm] at hText
      | cons next labels => simp [List.intercalate_cons_cons] at hText
  domain_ipv4 := by
    intro t h
    have hNonempty : t ≠ [] := by
      obtain ⟨a, b, c, d, rfl⟩ := h.octets
      simp [List.intercalate_cons_cons]
    rw [domainOf_dotted hNonempty h.dotted, toLowerAscii]
    refine congrArg some ((List.map_congr_left fun c hc => ?_).trans (List.map_id t))
    exact (toLower_of_dotted (h.dotted c hc)).2.2 (h.chars c hc)
  ipv6_plain := by
    intro t address h
    obtain ⟨rfl, -⟩ := Option.ite_none_right_eq_some.mp h
    decide
  ipv6_stable := by
    intro t address h
    obtain ⟨rfl, hAddress⟩ := Option.ite_none_right_eq_some.mp h
    cases hAddress
    rfl
  isIP_ipv6 := by
    intro t h
    refine ⟨t, [], (List.append_nil t).symm, ?_, .inl rfl⟩
    by_cases hLoopback : t = [':', ':', '1']
    · rw [hLoopback]
      rfl
    · rw [show namePlatform.isIP t = 0 from if_neg hLoopback] at h
      cases h

def EXAMPLE_HOST : Text := ['s', 's', 'h', '.', 'e', 'x', 'a', 'm', 'p', 'l', 'e']

def exampleRequest (port : Nat) : SystemProxyResolveRequest := ⟨some EXAMPLE_HOST, some (.finite port)⟩

theorem exampleHost_isDnsName : IsDnsName (fun _ => false) EXAMPLE_HOST where
  spelling := ⟨[['s', 's', 'h'], ['e', 'x', 'a', 'm', 'p', 'l', 'e']], by decide, .inl rfl, by decide, by decide, by decide⟩
  length := by decide

theorem exampleHost_plain : ¬ Disguised namePlatform EXAMPLE_HOST := by
  rintro ⟨-, body, hostname, hSpelled, hHidden⟩
  have hBody := hSpelled.body_eq fun c hc =>
    plain_of_class (p := isDottedChar) (by decide) (exampleHost_isDnsName.dotted c hc)
  exact hHidden.elim (fun hNe => hNe hBody) (by decide)

theorem example_host_is_reached_on_22 :
    ReachesPlainHost namePlatform (fun _ => false) (exampleRequest 22) ∧ NamesItsHost namePlatform (exampleRequest 22) := by
  refine (system_proxy_target_is_exact_iff namePlatform_documented (exampleRequest 22)).mpr ⟨?_, ?_⟩
  · rintro host normal - - hDefault
    have hPort : ((22 : Nat) : Rat) = (DEFAULT_PORT : Nat) := JsNumber.finite.inj (Option.some.inj hDefault)
    exact absurd (Nat.cast_injective hPort) (by decide)
  · rintro port -
    have hText : (exampleRequest 22).hostText = EXAMPLE_HOST := by decide
    rw [hText]
    exact .inr (.inr exampleHost_plain)

theorem example_host_is_rejected_on_443 :
    namePlatform.Documented (fun _ => false) ∧ ¬ ReachesPlainHost namePlatform (fun _ => false) (exampleRequest 443) := by
  refine ⟨namePlatform_documented, fun hReaches => ?_⟩
  exact (reachesPlainHost_iff namePlatform_documented _).mp hReaches EXAMPLE_HOST _ rfl (.dns exampleHost_isDnsName) rfl

end MainProcess
