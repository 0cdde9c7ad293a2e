import Cosmosh.Ssh.SystemProxy

/-! # Which proxy rules survive

Every supported rule keeps its place, its host and its port, as long as the port is not the one the
URL parser leaves out.
-/

namespace Ssh

open Library Library.JsText

theorem upperChar_of_isWhitespace {c : Char} (h : isWhitespace c = true) : upperChar c = c := by
  simp only [isWhitespace, Bool.or_eq_true, decide_eq_true_eq, Bool.and_eq_true] at h
  obtain hListed | ⟨hLower, hUpper⟩ := h
  · simp only [List.mem_cons, List.not_mem_nil, or_false] at hListed
    rcases hListed with rfl | rfl | rfl | rfl | rfl | rfl | rfl | rfl | rfl | rfl | rfl | rfl | rfl | rfl <;> decide
  · have hLess : 0x2000 ≤ c.val.toNat := hLower
    have hLong : c ≠ 'ſ' := by
      rintro rfl
      exact absurd hLess (by decide)
    have hDotless : c ≠ 'ı' := by
      rintro rfl
      exact absurd hLess (by decide)
    rw [upperChar, if_neg hLong, if_neg hDotless]
    refine dif_neg fun hSmall => ?_
    have hBound : c.val.toNat ≤ 122 := hSmall.2
    omega

theorem plain_of_toUpperCase {spelling : Text} (h : toUpperCase spelling = DIRECT) : Plain spelling := by
  intro c hc
  have hMem : upperChar c ∈ DIRECT := h ▸ List.mem_map_of_mem hc
  constructor
  · cases hWhite : isWhitespace c with
    | false => rfl
    | true =>
      rw [upperChar_of_isWhitespace hWhite] at hMem
      have hLetters : ∀ d ∈ DIRECT, isWhitespace d = false := by decide
      rw [hLetters c hMem] at hWhite
      cases hWhite
  · rintro rfl
    exact absurd hMem (by decide)

theorem plain_digits (port : Nat) : Plain (digits port) := by
  intro c hc
  have hDigit : c.isDigit = true := Nat.isDigit_of_mem_toDigits (by decide) (by decide) hc
  simp only [Char.isDigit, Bool.and_eq_true, decide_eq_true_eq] at hDigit
  have hLower : 48 ≤ c.val.toNat := hDigit.1
  have hUpper : c.val.toNat ≤ 57 := hDigit.2
  constructor
  · cases hWhite : isWhitespace c with
    | false => rfl
    | true =>
      simp only [isWhitespace, Bool.or_eq_true, decide_eq_true_eq, Bool.and_eq_true] at hWhite
      obtain hListed | ⟨hRange, -⟩ := hWhite
      · simp only [List.mem_cons, List.not_mem_nil, or_false] at hListed
        rcases hListed with rfl | rfl | rfl | rfl | rfl | rfl | rfl | rfl | rfl | rfl | rfl | rfl | rfl | rfl <;>
          simp_all
      · have hFar : 0x2000 ≤ c.val.toNat := hRange
        omega
  · rintro rfl
    exact absurd hUpper (by decide)

variable {t : Text}

theorem not_mem_of_plain (h : Plain t) : ';' ∉ t := fun hMem => (h ';' hMem).2 rfl

theorem not_mem_of_blank (h : Blank t) : ';' ∉ t := by
  intro hMem
  exact absurd (h ';' hMem) (by decide)

variable {after : Text}

theorem trimEnd_append_blank (t : Text) (h : Blank after) : trimEnd (t ++ after) = trimEnd t := by
  induction after using List.reverseRecOn with
  | nil => rw [List.append_nil]
  | append_singleton after c ih =>
    have hAfter : Blank after := fun d hd => h d (List.mem_append_left _ hd)
    rw [← List.append_assoc, trimEnd_append_of_whitespace (h c (List.mem_append_right _ (List.mem_singleton_self c))),
      ih hAfter]

variable {before : Text}

theorem trimStart_blank_append (h : Blank before) (t : Text) : trimStart (before ++ t) = trimStart t := by
  unfold trimStart
  induction before with
  | nil => rfl
  | cons c before ih =>
    rw [List.cons_append, List.dropWhile_cons_of_pos (h c List.mem_cons_self)]
    exact ih fun d hd => h d (List.mem_cons_of_mem c hd)

theorem trim_padded (hBefore : Blank before) (hAfter : Blank after) {first last : Char} {front : Text}
    (hFirst : t.head? = some first) (hLast : t = front ++ [last])
    (hPlain : isWhitespace first = false ∧ isWhitespace last = false) : JsText.trim (before ++ (t ++ after)) = t := by
  obtain ⟨rest, rfl⟩ : ∃ rest, t = first :: rest := by
    cases t with
    | nil => cases hFirst
    | cons c rest => exact ⟨rest, by rw [Option.some.inj hFirst]⟩
  rw [JsText.trim, trimStart_blank_append hBefore, List.cons_append, trimStart_cons_of_not hPlain.1, ← List.cons_append,
    trimEnd_append_blank _ hAfter, hLast]
  exact trimEnd_append_of_not hPlain.2

theorem trim_blank (h : Blank t) : JsText.trim t = [] := by
  have hStart := trimStart_blank_append h []
  rw [List.append_nil] at hStart
  rw [JsText.trim, hStart]
  rfl

theorem digits_concat (port : Nat) : ∃ front last, digits port = front ++ [last] ∧ isWhitespace last = false := by
  obtain hNil | ⟨front, last, hConcat⟩ := List.eq_nil_or_concat (digits port)
  · exact absurd hNil Nat.toDigits_ne_nil
  · rw [List.concat_eq_append] at hConcat
    have hMem : last ∈ digits port := by
      rw [hConcat]
      exact List.mem_append_right front (List.mem_singleton_self last)
    exact ⟨front, last, hConcat, (plain_digits port last hMem).1⟩

theorem space_not_mem_of_plain (h : Plain t) : ' ' ∉ t := by
  intro hMem
  have hWhite := (h ' ' hMem).1
  rw [show isWhitespace ' ' = true by decide] at hWhite
  cases hWhite

section

variable {nameOf ipv6Of : Text → Option Text} {parseUrl : Text → Option Url}

def normalHost (nameOf ipv6Of : Text → Option Text) (host : ProxyHost) : Text := (host.normal nameOf ipv6Of).getD []

theorem parseSystemProxyEndpoint_httpUrl {endpoint hostname : Text} {port : Nat}
    (hUrl : parseUrl (HTTP_PREFIX ++ endpoint) = some (httpUrl hostname port)) (hName : hostname ≠ [])
    (hLower : 1 ≤ port) (hUpper : port ≤ 65535) : parseSystemProxyEndpoint parseUrl endpoint =
      if port = 80 then none else some (normalizeUrlHostname hostname, port) := by
  rw [parseSystemProxyEndpoint, hUrl]
  by_cases hDefault : port = 80
  · subst hDefault
    simp [httpUrl]
  · have hDigits : digits port ≠ [] := Nat.toDigits_ne_nil
    have hPort : Nat.ofDigitChars 10 (digits port) 0 = port := Nat.ofDigitChars_ten_toDigits
    have hRange : ¬ (port < 1 ∨ 65535 < port) := by omega
    simp only [httpUrl, hDefault, hDigits, hPort, hName, if_false, ne_eq, not_true_eq_false, false_or]
    rw [if_neg hRange]

variable {host : ProxyHost}

theorem parseSystemProxyEndpoint_eq (hParses : ParsesAuthorities nameOf ipv6Of parseUrl) {port : Nat}
    (hHost : (host.normal nameOf ipv6Of).isSome = true) (hLower : 1 ≤ port) (hUpper : port ≤ 65535) :
    parseSystemProxyEndpoint parseUrl (host.text ++ ':' :: digits port) =
      if port = 80 then none else some (normalHost nameOf ipv6Of host, port) := by
  obtain ⟨hostname, hNormal⟩ := Option.isSome_iff_exists.mp hHost
  rw [normalHost, hNormal, Option.getD_some]
  cases host with
  | name host =>
    obtain ⟨hName, hBracket⟩ := hParses.name_plain hNormal
    have hKept : normalizeUrlHostname hostname = hostname := if_neg fun hBoth => hBracket hBoth.1
    rw [ProxyHost.text, parseSystemProxyEndpoint_httpUrl (hParses.name hNormal hLower hUpper) hName hLower hUpper, hKept]
  | ipv6 host =>
    have hName : '[' :: hostname ++ [']'] ≠ [] := by simp
    have hKept : normalizeUrlHostname ('[' :: hostname ++ [']']) = hostname := by
      have hBrackets : ('[' :: hostname ++ [']']).head? = some '[' ∧ ('[' :: hostname ++ [']']).getLast? = some ']' := by
        constructor
        · rfl
        · exact List.getLast?_concat
      rw [normalizeUrlHostname, if_pos hBrackets, List.cons_append, List.tail_cons, List.dropLast_concat]
    rw [ProxyHost.text, parseSystemProxyEndpoint_httpUrl (hParses.ipv6 hNormal hLower hUpper) hName hLower hUpper, hKept]

def ProxyRule.usesDefaultPort : ProxyRule → Bool
  | .proxy _ _ _ port => port = 80
  | _ => false

theorem parseSystemProxyRule_of_trim {rawRule directive rest : Text} (hTrim : JsText.trim rawRule = directive ++ ' ' :: rest)
    (hDirective : directive ≠ []) (hPlain : Plain directive) :
    parseSystemProxyRule parseUrl rawRule = (parseSystemProxyEndpoint parseUrl (JsText.trim rest)).bind fun endpoint =>
      (proxyTypeOf (toUpperCase directive)).map fun type => .proxy type endpoint.1 endpoint.2 := by
  have hNonempty : directive ++ ' ' :: rest ≠ [] := by simp
  have hDirect : toUpperCase (directive ++ ' ' :: rest) ≠ DIRECT := by
    intro hSpelled
    exact space_not_mem_of_plain (plain_of_toUpperCase hSpelled) (List.mem_append_right directive List.mem_cons_self)
  have hIndex : (directive ++ ' ' :: rest).idxOf ' ' = directive.length := by
    rw [List.idxOf_append_of_notMem (space_not_mem_of_plain hPlain), List.idxOf_cons_self, Nat.add_zero]
  have hFound : ¬ (directive.length = 0 ∨ directive.length = (directive ++ ' ' :: rest).length) := by
    have hPositive := List.length_pos_of_ne_nil hDirective
    rw [List.length_append, List.length_cons]
    omega
  have hDrop : (directive ++ ' ' :: rest).drop (directive.length + 1) = rest := by
    rw [← List.drop_drop, List.drop_left, List.drop_one, List.tail_cons]
  simp only [parseSystemProxyRule, hTrim, if_neg hNonempty, if_neg hDirect, hIndex, if_neg hFound, hDrop, List.take_left]
  cases parseSystemProxyEndpoint parseUrl (JsText.trim rest) with
  | none => rfl
  | some endpoint => rfl

theorem trim_endpoint {gap : Text} (hGap : Blank gap) (hHost : Plain host.text) (port : Nat) :
    JsText.trim (gap ++ (host.text ++ ':' :: digits port)) = host.text ++ ':' :: digits port := by
  obtain ⟨front, last, hDigits, hLast⟩ := digits_concat port
  have hConcat : host.text ++ ':' :: digits port = (host.text ++ ':' :: front) ++ [last] := by simp [hDigits]
  have hNone : Blank [] := fun c hc => absurd hc List.not_mem_nil
  have hHead : ∃ c, (host.text ++ ':' :: digits port).head? = some c ∧ isWhitespace c = false := by
    cases hText : host.text with
    | nil => exact ⟨':', rfl, by decide⟩
    | cons c tail => exact ⟨c, rfl, (hHost c (hText ▸ List.mem_cons_self)).1⟩
  obtain ⟨c, hSome, hc⟩ := hHead
  have hTrim := trim_padded hGap hNone hSome hConcat ⟨hc, hLast⟩
  rwa [List.append_nil] at hTrim

theorem parseSystemProxyRule_proxy (hParses : ParsesAuthorities nameOf ipv6Of parseUrl) (hBefore : Blank before)
    (hAfter : Blank after) {directive gap : Text} {port : Nat} (hFormed : (ProxyRule.proxy directive gap host port).WellFormed nameOf ipv6Of) :
    parseSystemProxyRule parseUrl (before ++ ((ProxyRule.proxy directive gap host port).text ++ after)) =
      if port = 80 then none else (ProxyRule.proxy directive gap host port).candidate (normalHost nameOf ipv6Of) := by
  obtain ⟨⟨hDirective, hPlain⟩, hGap, ⟨hHost, hNormal⟩, hLower, hUpper⟩ := hFormed
  obtain ⟨front, last, hDigits, hLast⟩ := digits_concat port
  obtain ⟨first, rest, hCons⟩ := List.exists_cons_of_ne_nil hDirective
  have hFirst : isWhitespace first = false := (hPlain first (hCons ▸ List.mem_cons_self)).1
  have hHead : (ProxyRule.proxy directive gap host port).text.head? = some first := by rw [hCons]; rfl
  have hConcat : (ProxyRule.proxy directive gap host port).text =
      (directive ++ ' ' :: (gap ++ (host.text ++ ':' :: front))) ++ [last] := by
    simp [ProxyRule.text, hDigits]
  have hRule := trim_padded hBefore hAfter hHead hConcat ⟨hFirst, hLast⟩
  rw [parseSystemProxyRule_of_trim hRule hDirective hPlain, trim_endpoint hGap hHost,
    parseSystemProxyEndpoint_eq hParses hNormal hLower hUpper]
  split
  · rfl
  · rfl

variable {padded : PaddedRule}

theorem parseSystemProxyRule_eq (hParses : ParsesAuthorities nameOf ipv6Of parseUrl) (hFormed : padded.WellFormed nameOf ipv6Of) :
    parseSystemProxyRule parseUrl padded.text =
      if padded.rule.usesDefaultPort then none else padded.rule.candidate (normalHost nameOf ipv6Of) := by
  obtain ⟨before, rule, after⟩ := padded
  obtain ⟨hBefore, hRule, hAfter⟩ := hFormed
  cases rule with
  | blank =>
    have hBlank : Blank (before ++ ([] ++ after)) := by
      intro c hc
      obtain hLeft | hRight := List.mem_append.mp hc
      · exact hBefore c hLeft
      · exact hAfter c hRight
    rw [PaddedRule.text, ProxyRule.text, parseSystemProxyRule, trim_blank hBlank]
    rfl
  | direct spelling =>
    have hSpelled : toUpperCase spelling = DIRECT := hRule
    have hPlain := plain_of_toUpperCase hSpelled
    have hNonempty : spelling ≠ [] := by
      rintro rfl
      cases hRule
    obtain ⟨first, rest, hCons⟩ := List.exists_cons_of_ne_nil hNonempty
    obtain hNil | ⟨front, last, hConcat⟩ := List.eq_nil_or_concat spelling
    · exact absurd hNil hNonempty
    · rw [List.concat_eq_append] at hConcat
      have hEnds : isWhitespace first = false ∧ isWhitespace last = false := by
        constructor
        · exact (hPlain first (hCons ▸ List.mem_cons_self)).1
        · exact (hPlain last (hConcat ▸ List.mem_append_right front (List.mem_singleton_self last))).1
      have hTrim : JsText.trim (before ++ (spelling ++ after)) = spelling := trim_padded hBefore hAfter (by rw [hCons]; rfl) hConcat hEnds
      simp only [PaddedRule.text, ProxyRule.text, parseSystemProxyRule, hTrim, if_neg hNonempty]
      rw [if_pos hSpelled]
      rfl
  | proxy directive gap host port =>
    rw [PaddedRule.text, parseSystemProxyRule_proxy hParses hBefore hAfter hRule]
    simp only [ProxyRule.usesDefaultPort, decide_eq_true_eq]

theorem not_mem_text_of_wellFormed (hFormed : padded.WellFormed nameOf ipv6Of) : ';' ∉ padded.text := by
  obtain ⟨before, rule, after⟩ := padded
  obtain ⟨hBefore, hRule, hAfter⟩ := hFormed
  have hText : ';' ∉ rule.text := by
    cases rule with
    | blank => exact List.not_mem_nil
    | direct spelling => exact not_mem_of_plain (plain_of_toUpperCase hRule)
    | proxy directive gap host port =>
      obtain ⟨⟨-, hPlain⟩, hGap, ⟨hHost, -⟩, -, -⟩ := hRule
      have hDigits := not_mem_of_plain (plain_digits port)
      simp only [ProxyRule.text, List.mem_append, List.mem_cons, not_or]
      exact ⟨not_mem_of_plain hPlain, by decide, not_mem_of_blank hGap, not_mem_of_plain hHost, by decide, hDigits⟩
  simp only [PaddedRule.text, List.mem_append, not_or]
  exact ⟨not_mem_of_blank hBefore, hText, not_mem_of_blank hAfter⟩

theorem parseSystemProxyRules_render {rules : List PaddedRule} (hFormed : ∀ padded ∈ rules, padded.WellFormed nameOf ipv6Of) :
    parseSystemProxyRules parseUrl (renderRules rules) = rules.filterMap fun padded => parseSystemProxyRule parseUrl padded.text := by
  cases rules with
  | nil => rfl
  | cons padded rules =>
    have hSeparators : ∀ t ∈ (padded :: rules).map PaddedRule.text, ';' ∉ t := by
      intro t ht
      obtain ⟨other, hOther, rfl⟩ := List.mem_map.mp ht
      exact not_mem_text_of_wellFormed (hFormed other hOther)
    rw [parseSystemProxyRules, renderRules, List.splitOn_intercalate ';' hSeparators (by simp), List.filterMap_map]
    rfl

theorem filterMap_eq_iff {α β : Type} {f g : α → Option β} {l : List α} (hLess : ∀ x ∈ l, (f x).isSome = true → (g x).isSome = true) :
    l.filterMap f = l.filterMap g ↔ ∀ x ∈ l, f x = g x := by
  have hLength : ∀ l : List α, (∀ x ∈ l, (f x).isSome = true → (g x).isSome = true) →
      (l.filterMap f).length ≤ (l.filterMap g).length := by
    intro l hLess
    induction l with
    | nil => exact Nat.le_refl 0
    | cons x l ih =>
      have hTail := ih fun y hy => hLess y (List.mem_cons_of_mem x hy)
      have hHead := hLess x List.mem_cons_self
      cases hf : f x <;> cases hg : g x <;> simp_all
      omega
  induction l with
  | nil => simp
  | cons x l ih =>
    have hTail : ∀ y ∈ l, (f y).isSome = true → (g y).isSome = true := fun y hy => hLess y (List.mem_cons_of_mem x hy)
    have hHead := hLess x List.mem_cons_self
    have hShorter := hLength l hTail
    have hRest := ih hTail
    rw [List.forall_mem_cons]
    cases hf : f x with
    | none =>
      cases hg : g x with
      | none => simp [hf, hg, hRest]
      | some b =>
        rw [List.filterMap_cons_none hf, List.filterMap_cons_some hg]
        constructor
        · intro hEq
          have hLengths := congrArg List.length hEq
          rw [List.length_cons] at hLengths
          omega
        · rintro ⟨hNone, -⟩
          cases hNone
    | some a =>
      rw [hf] at hHead
      obtain ⟨b, hg⟩ := Option.isSome_iff_exists.mp (hHead rfl)
      rw [List.filterMap_cons_some hf, List.filterMap_cons_some hg, hg, List.cons.injEq, Option.some.injEq]
      exact and_congr Iff.rfl hRest

theorem isSome_candidate (first second : ProxyHost → Text) (rule : ProxyRule) :
    (rule.candidate first).isSome = (rule.candidate second).isSome := by
  cases rule with
  | blank => rfl
  | direct spelling => rfl
  | proxy directive gap host port => simp [ProxyRule.candidate]

theorem parseSystemProxyRule_isSome (hParses : ParsesAuthorities nameOf ipv6Of parseUrl)
    (hFormed : padded.WellFormed nameOf ipv6Of) (hostOf : ProxyHost → Text)
    (hSome : (parseSystemProxyRule parseUrl padded.text).isSome = true) : (padded.rule.candidate hostOf).isSome = true := by
  rw [parseSystemProxyRule_eq hParses hFormed] at hSome
  rw [isSome_candidate hostOf (normalHost nameOf ipv6Of)]
  split at hSome
  · cases hSome
  · exact hSome

/-- What a supported rule must avoid to come back with the host `hostOf` reads in it. -/
def ProxyRule.Kept (nameOf ipv6Of : Text → Option Text) (hostOf : ProxyHost → Text) : ProxyRule → Prop
  | .proxy directive _ host port =>
    (proxyTypeOf (toUpperCase directive)).isSome = true → port ≠ 80 ∧ normalHost nameOf ipv6Of host = hostOf host
  | _ => True

instance (hostOf : ProxyHost → Text) : (rule : ProxyRule) → Decidable (rule.Kept nameOf ipv6Of hostOf)
  | .blank => inferInstanceAs (Decidable True)
  | .direct _ => inferInstanceAs (Decidable True)
  | .proxy directive _ host port =>
    inferInstanceAs (Decidable ((proxyTypeOf (toUpperCase directive)).isSome = true →
      port ≠ 80 ∧ normalHost nameOf ipv6Of host = hostOf host))

theorem parseSystemProxyRule_eq_iff (hParses : ParsesAuthorities nameOf ipv6Of parseUrl)
    (hFormed : padded.WellFormed nameOf ipv6Of) (hostOf : ProxyHost → Text) :
    parseSystemProxyRule parseUrl padded.text = padded.rule.candidate hostOf ↔ padded.rule.Kept nameOf ipv6Of hostOf := by
  rw [parseSystemProxyRule_eq hParses hFormed]
  cases padded.rule with
  | blank => simp [ProxyRule.usesDefaultPort, ProxyRule.Kept, ProxyRule.candidate]
  | direct spelling => simp [ProxyRule.usesDefaultPort, ProxyRule.Kept, ProxyRule.candidate]
  | proxy directive gap host port =>
    simp only [ProxyRule.usesDefaultPort, ProxyRule.candidate, ProxyRule.Kept, decide_eq_true_eq]
    cases hType : proxyTypeOf (toUpperCase directive) with
    | none => simp
    | some type =>
      by_cases hDefault : port = 80
      · simp [hDefault]
      · simp [hDefault]

theorem kept_normalHost_iff (rule : ProxyRule) : rule.Kept nameOf ipv6Of (normalHost nameOf ipv6Of) ↔
    (rule.isSupported = true → rule.usesDefaultPort = false) := by
  cases rule with
  | blank => simp [ProxyRule.Kept, ProxyRule.isSupported]
  | direct spelling => simp [ProxyRule.Kept, ProxyRule.isSupported]
  | proxy directive gap host port => simp [ProxyRule.Kept, ProxyRule.isSupported, ProxyRule.usesDefaultPort]

/-- The list comes back whole if and only if no supported rule names the port that the URL parser leaves out. To the
letter, each supported host must also be in the form in which the URL parser writes it. -/
theorem supported_rules_survive_iff (hParses : ParsesAuthorities nameOf ipv6Of parseUrl) {rules : List PaddedRule}
    (hFormed : ∀ padded ∈ rules, padded.WellFormed nameOf ipv6Of) : (parseSystemProxyRules parseUrl (renderRules rules) =
        rules.filterMap (fun padded => padded.rule.candidate (normalHost nameOf ipv6Of)) ↔
      ∀ padded ∈ rules, padded.rule.isSupported = true → padded.rule.usesDefaultPort = false) ∧
    (parseSystemProxyRules parseUrl (renderRules rules) = rules.filterMap (fun padded => padded.rule.candidate ProxyHost.literal) ↔
      ∀ padded ∈ rules, padded.rule.Kept nameOf ipv6Of ProxyHost.literal) := by
  have hSpec : ∀ hostOf : ProxyHost → Text, (parseSystemProxyRules parseUrl (renderRules rules) =
        rules.filterMap (fun padded => padded.rule.candidate hostOf) ↔
      ∀ padded ∈ rules, padded.rule.Kept nameOf ipv6Of hostOf) := by
    intro hostOf
    rw [parseSystemProxyRules_render hFormed]
    have hSome : ∀ padded ∈ rules, (parseSystemProxyRule parseUrl padded.text).isSome = true →
        (padded.rule.candidate hostOf).isSome = true :=
      fun padded hPadded => parseSystemProxyRule_isSome hParses (hFormed padded hPadded) hostOf
    refine (filterMap_eq_iff hSome).trans ?_
    constructor
    · intro hSame padded hPadded
      exact (parseSystemProxyRule_eq_iff hParses (hFormed padded hPadded) hostOf).mp (hSame padded hPadded)
    · intro hKept padded hPadded
      exact (parseSystemProxyRule_eq_iff hParses (hFormed padded hPadded) hostOf).mpr (hKept padded hPadded)
  constructor
  · refine (hSpec _).trans ?_
    constructor
    · intro hKept padded hPadded hSupported
      exact (kept_normalHost_iff padded.rule).mp (hKept padded hPadded) hSupported
    · intro hPorts padded hPadded
      exact (kept_normalHost_iff padded.rule).mpr (hPorts padded hPadded)
  · exact hSpec ProxyHost.literal

end

def localHosts : List Text := [['r'], ['[', ':', ':', '1', ']']]

def localPort (host t : Text) : Nat := Nat.ofDigitChars 10 (t.drop (HTTP_PREFIX ++ host ++ [':']).length) 0

def localUrl (t : Text) : Option Url :=
  (localHosts.find? fun host => t = HTTP_PREFIX ++ (host ++ ':' :: digits (localPort host t))).map fun host =>
    httpUrl host (localPort host t)

def localName (host : Text) : Option Text := if host = ['r'] then some ['r'] else none

def localIpv6 (host : Text) : Option Text := if host = [':', ':', '1'] then some [':', ':', '1'] else none

theorem localPort_eq (host : Text) (port : Nat) : localPort host (HTTP_PREFIX ++ (host ++ ':' :: digits port)) = port := by
  have hSplit : HTTP_PREFIX ++ (host ++ ':' :: digits port) = (HTTP_PREFIX ++ host ++ [':']) ++ digits port := by simp
  rw [localPort, hSplit, List.drop_left]
  exact Nat.ofDigitChars_ten_toDigits

theorem parsesAuthorities_local : ParsesAuthorities localName localIpv6 localUrl where
  name := by
    intro host hostname port hName hLower hUpper
    simp only [localName] at hName
    split at hName
    · next hHost =>
      obtain rfl := Option.some.inj hName
      subst hHost
      have hPort := localPort_eq ['r'] port
      simp only [List.cons_append, List.nil_append] at hPort
      simp [localUrl, localHosts, hPort]
    · cases hName
  name_plain := by
    intro host hostname hName
    simp only [localName] at hName
    split at hName
    · obtain rfl := Option.some.inj hName
      decide
    · cases hName
  ipv6 := by
    intro host hostname port hName hLower hUpper
    simp only [localIpv6] at hName
    split at hName
    · next hHost =>
      obtain rfl := Option.some.inj hName
      subst hHost
      have hPort := localPort_eq ['[', ':', ':', '1', ']'] port
      simp only [List.cons_append, List.nil_append] at hPort
      simp [localUrl, localHosts, hPort]
    · cases hName

/-- `PROXY r:80;DIRECT` -/
def defaultPortRules : List PaddedRule := [⟨[], .proxy PROXY [] (.name ['r']) 80, []⟩, ⟨[], .direct DIRECT, []⟩]

/-- ` SOCKS5 [::1]:81 ; DIRECT` -/
def loopbackRules : List PaddedRule := [⟨[' '], .proxy SOCKS5 [] (.ipv6 [':', ':', '1']) 81, [' ']⟩, ⟨[' '], .direct DIRECT, []⟩]

theorem wellFormed_defaultPortRules : ∀ padded ∈ defaultPortRules, padded.WellFormed localName localIpv6 := by
  decide

theorem wellFormed_loopbackRules : ∀ padded ∈ loopbackRules, padded.WellFormed localName localIpv6 := by
  decide

theorem default_port_rule_is_dropped : ParsesAuthorities localName localIpv6 localUrl ∧
      (∀ padded ∈ defaultPortRules, padded.WellFormed localName localIpv6) ∧
      defaultPortRules.filterMap (fun padded => padded.rule.candidate ProxyHost.literal) = [.proxy .http ['r'] 80, .direct] ∧
      parseSystemProxyRules localUrl (renderRules defaultPortRules) = [.direct] := by
  refine ⟨parsesAuthorities_local, wellFormed_defaultPortRules, rfl, ?_⟩
  rw [parseSystemProxyRules_render wellFormed_defaultPortRules]
  decide

theorem loopback_rules_survive : parseSystemProxyRules localUrl (renderRules loopbackRules) = [.proxy .socks5 [':', ':', '1'] 81, .direct] := by
  have hIff := (supported_rules_survive_iff parsesAuthorities_local wellFormed_loopbackRules).2
  have hKept : ∀ padded ∈ loopbackRules, padded.rule.Kept localName localIpv6 ProxyHost.literal := by
    decide
  exact hIff.mpr hKept

end Ssh
