import Cixa.UrlHost
import Cixa.Lasting
import Cixa.Runs
import Mathlib.Data.List.Infix

/-! # Canonical forms — when canonicalizing twice is canonicalizing once

    A merchant domain and the host of a redirect are stored in canonical
    form, and what is stored is canonicalized AGAIN: when the state is
    validated, and when a request is repeated.  The form is a fixed point
    with two exceptions.  The bound on the length is checked before the
    mapping to ASCII, which makes names longer; and the host of a URL may
    lose trailing dots that kept it from being read as an address. -/

namespace Treasury

open CixaData CixaHost Outcome Checks Chars UrlHost Transition

/-! ## What is documented of the libraries -/

/-- The mapping of names to ASCII: its results are fixed points in lower
    case, it only lowers the case of ASCII, and it treats the labels of a
    name one by one, so that the final dot may be left out. -/
structure MapsToAscii (toAscii : String → Option String) : Prop where
  idempotent : ∀ {x y}, toAscii x = some y → toAscii y = some y
  ascii : ∀ {x y}, toAscii x = some y → ∀ c ∈ y.toList, IsAscii c
  onAscii : ∀ {x y}, (∀ c ∈ x.toList, IsAscii c) → toAscii x = some y →
    y.toList = x.toList.map toAsciiLowercase
  plain : ∀ {x y}, x.toList.any isControl = false → toAscii x = some y →
    y.toList.any isControl = false
  root : ∀ {short : List Char},
    toAscii (String.ofList (short ++ ['.']))
      = some (String.ofList (short ++ ['.'])) →
    toAscii (String.ofList short) = some (String.ofList short)

/-- The URL library: a URL is printed to a text that is parsed to it again,
    the host of an HTTPS URL is one that was read and printed, setting the
    host a URL has changes nothing, and setting another reads it. -/
structure ReadsUrls (host : Host) (segmentsText : List Nat → List Char) :
    Prop where
  segments : ∀ ns, ∀ c ∈ segmentsText ns,
    c = ':' ∨ (isAsciiHexdigit c = true ∧ isAsciiUppercase c = false)
  reparse : ∀ {x u}, host.parseUrl x = some u → host.parseUrl u.text = some u
  hostRead : ∀ {x u n}, host.parseUrl x = some u → u.scheme = "https" →
    u.host = some n → ∃ text h, parseHost host.domainToAscii text = some h
      ∧ n = h.print segmentsText
  sameHost : ∀ {x u n}, host.parseUrl x = some u → u.scheme = "https" →
    u.host = some n → host.setHost u n = some u
  setHost : ∀ {x u k u'}, host.parseUrl x = some u → u.scheme = "https" →
    ':' ∉ k.toList → host.setHost u k = some u' →
    host.parseUrl u'.text = some u' ∧ ∃ h,
      parseHost host.domainToAscii k.toList = some h
        ∧ u' = { u with
          host := some (h.print segmentsText), text := u'.text }

variable {host : Host} {segmentsText : List Nat → List Char} {x y n k : String}

/-! ## The mapping to ASCII -/

theorem map_lower_eq {text : List Char}
    (h : ∀ c ∈ text, isAsciiUppercase c = false) :
    text.map toAsciiLowercase = text :=
  (List.map_congr_left fun c hc => AddressText.toAsciiLowercase_eq (h c hc)).trans
    (List.map_id text)

theorem MapsToAscii.lower {toAscii : String → Option String}
    (h : MapsToAscii toAscii) (hx : toAscii x = some y) :
    y.toList.map toAsciiLowercase = y.toList :=
  (h.onAscii (h.ascii hx) (h.idempotent hx)).symm

/-- Without its trailing dots a result is still a fixed point. -/
theorem MapsToAscii.trimmed {toAscii : String → Option String}
    (h : MapsToAscii toAscii) (hx : toAscii x = some y) :
    toAscii (String.ofList (trimEndMatches y.toList '.'))
      = some (String.ofList (trimEndMatches y.toList '.')) := by
  refine trimEnd_induction (P := fun text => toAscii (String.ofList text)
    = some (String.ofList text)) (fun _ => h.root) ?_
  rw [String.ofList_toList]
  exact h.idempotent hx

/-! ## Canonical domains -/

theorem bounded_ok {value field : String} {max : Nat} :
    bounded value field max = .ok ⟨⟩
      ↔ value.toList ≠ [] ∧ value.toList.length ≤ max
        ∧ value.toList.any isControl = false := by
  unfold bounded
  simp only [bind_eq_ok, refuseIf_eq_ok, not_or, not_lt, Bool.not_eq_true,
    ne_eq, and_assoc]
  constructor
  · rintro ⟨_, hne, hlength, hplain⟩
    exact ⟨hne, hlength, hplain⟩
  · rintro ⟨hne, hlength, hplain⟩
    exact ⟨⟨⟩, hne, hlength, hplain⟩

theorem canonicalizeDomain_ok : canonicalizeDomain host x = .ok y
    ↔ bounded x "domain" 320 = .ok ⟨⟩ ∧ ∃ candidate encoded,
      domainCandidate host x = .ok candidate
        ∧ host.domainToAscii candidate = some encoded
        ∧ y = String.ofList
          ((trimEndMatches encoded.toList '.').map toAsciiLowercase)
        ∧ checkAsciiDomain y = .ok ⟨⟩ := by
  unfold canonicalizeDomain
  simp only [bind_eq_ok, orRefuse_eq_ok, pure_eq_ok]
  constructor
  · rintro ⟨⟨⟩, hbound, c, hc, e, he, ⟨⟩, hcheck, rfl⟩
    exact ⟨hbound, c, e, hc, he, rfl, hcheck⟩
  · rintro ⟨hbound, c, e, hc, he, rfl, hcheck⟩
    exact ⟨⟨⟩, hbound, c, hc, e, he, ⟨⟩, hcheck, rfl⟩

/-- The name is neither empty nor does it hold a slash. -/
theorem checkAsciiDomain_ok (h : checkAsciiDomain x = .ok ⟨⟩) :
    x.toList ≠ [] ∧ '/' ∉ x.toList := by
  unfold checkAsciiDomain at h
  simp only [bind_eq_ok, refuseIf_eq_ok, not_or] at h
  obtain ⟨_, ⟨hne, hslash, _⟩, _⟩ := h
  exact ⟨hne, hslash⟩

/-- A name without slashes is no URL. -/
theorem domainCandidate_plain (h : '/' ∉ x.toList) : domainCandidate host x
    = .ok (String.ofList (trimEndMatches x.toList '.')) := by
  have hno : ¬containsText x.toList "://".toList = true := by
    intro hany
    obtain ⟨t, ht, hstart⟩ := List.any_eq_true.mp hany
    have hmem : '/' ∈ t :=
      (List.isPrefixOf_iff_prefix.mp hstart).subset (by decide)
    exact h (((List.mem_tails _ _).mp ht).subset hmem)
  unfold domainCandidate
  rw [if_neg hno]
  rfl

/-- **EXPANSION**: the ASCII form of the name is longer than the bound. -/
def Expands (host : Host) (x : String) : Prop :=
  ∃ candidate encoded, domainCandidate host x = .ok candidate
    ∧ host.domainToAscii candidate = some encoded
    ∧ 320 < (trimEndMatches encoded.toList '.').length

/-! ## Hosts of URLs -/

/-- The characters that the host of a URL may hold. -/
def isHostChar (c : Char) : Bool :=
  decide (IsAscii c) && !isAsciiUppercase c && !isControl c && c != '/'

theorem hostChar_facts {c : Char} (h : isHostChar c = true) :
    IsAscii c ∧ isAsciiUppercase c = false ∧ isControl c = false
      ∧ c ≠ '/' := by
  unfold isHostChar at h
  simpa [and_assoc] using h

theorem isAscii_of_le {c d : Char} (h : c ≤ d) (hd : IsAscii d) : IsAscii c :=
  UInt32.lt_of_le_of_lt (Char.le_def.mp h) hd

theorem isAscii_of_digit {c : Char} (h : c.isDigit = true) : IsAscii c := by
  obtain ⟨_, hhigh⟩ := Bool.and_eq_true_iff.mp h
  exact isAscii_of_le (d := '9') (of_decide_eq_true hhigh) (by decide)

theorem isAscii_of_hexdigit {c : Char} (h : isAsciiHexdigit c = true) :
    IsAscii c := by
  unfold isAsciiHexdigit isAsciiDigit at h
  simp only [Bool.or_eq_true, Bool.and_eq_true, decide_eq_true_eq] at h
  rcases h with (⟨_, h⟩ | ⟨_, h⟩) | ⟨_, h⟩
  · exact isAscii_of_le h (by decide)
  · exact isAscii_of_le h (by decide)
  · exact isAscii_of_le h (by decide)

/-- Dotted octets as a spelling of their address. -/
theorem isDotted_dotted {a b c d : Nat}
    (h : a < 256 ∧ b < 256 ∧ c < 256 ∧ d < 256) :
    AddressText.IsDotted (dotted a b c d) a b c d := ⟨h, rfl⟩

theorem dotted_last (a b c d : Nat) : (dotted a b c d).getLast? ≠ some '.' := by
  intro h
  have hlast : (Nat.toDigits 10 d).getLast? = some '.' := by
    have hcons : ∀ (t u : List Char), u ≠ [] →
        (t ++ '.' :: u).getLast? = u.getLast? := by
      intro t u hu
      rw [List.getLast?_append_of_ne_nil _ (List.cons_ne_nil _ _),
        ← List.singleton_append, List.getLast?_append_of_ne_nil _ hu]
    unfold dotted at h
    rwa [hcons _ _ (by simp), hcons _ _ (by simp),
      hcons _ _ Nat.toDigits_ne_nil] at h
  have hdigit := Nat.isDigit_of_mem_toDigits (b := 10) (by decide) (by decide)
    (List.mem_of_getLast? hlast)
  exact absurd hdigit (by decide)

/-- What the text of a host is like: where it ends in a dot it is a name. -/
structure HostShape (toAscii : String → Option String) (n : String) : Prop where
  chars : ∀ c ∈ n.toList, isHostChar c = true
  name : n.toList.getLast? = some '.' →
    (∀ c ∈ n.toList, isForbidden c = false) ∧ toAscii n = some n

theorem hostShape_dotted {toAscii : String → Option String} {a b c d : Nat}
    (h : a < 256 ∧ b < 256 ∧ c < 256 ∧ d < 256) :
    HostShape toAscii (String.ofList (dotted a b c d)) where
  chars := by
    rw [String.toList_ofList]
    intro x hx
    rcases (isDotted_dotted h).chars x hx with hdigit | rfl
    · exact (isAscii_of_digit hdigit).cases
        (P := fun c => c.isDigit = true → isHostChar c = true) (by decide) hdigit
    · decide
  name := by
    rw [String.toList_ofList]
    exact fun hlast => absurd hlast (dotted_last a b c d)

theorem ReadsUrls.hostShape_bracketed (hurls : ReadsUrls host segmentsText)
    {toAscii : String → Option String} (ns : List Nat) :
    HostShape toAscii (String.ofList ('[' :: (segmentsText ns ++ [']']))) where
  chars := by
    rw [String.toList_ofList]
    intro c hc
    rw [List.mem_cons, List.mem_append, List.mem_singleton] at hc
    rcases hc with rfl | hc | rfl
    · decide
    · rcases hurls.segments ns c hc with rfl | ⟨hhex, hupper⟩
      · decide
      · exact (isAscii_of_hexdigit hhex).cases
          (P := fun c => isAsciiHexdigit c = true → isAsciiUppercase c = false →
            isHostChar c = true) (by decide) hhex hupper
    · decide
  name := by
    rw [String.toList_ofList, ← List.cons_append, List.getLast?_concat]
    exact nofun

theorem MapsToAscii.hostShape {toAscii : String → Option String}
    (h : MapsToAscii toAscii) (hx : toAscii x = some n)
    (hplain : ∀ c ∈ n.toList, isForbidden c = false) :
    HostShape toAscii n where
  chars := by
    intro c hc
    have hlower : toAsciiLowercase c = c :=
      List.map_eq_map_iff.mp ((h.lower hx).trans (List.map_id _).symm) c hc
    exact (h.ascii hx c hc).cases
      (P := fun c => toAsciiLowercase c = c → isForbidden c = false →
        isHostChar c = true) (by decide) hlower (hplain c hc)
  name := fun _ => ⟨hplain, h.idempotent hx⟩

/-- **HOSTS OF URLS** are addresses, or names that were mapped to ASCII. -/
theorem ReadsUrls.hostShape (hurls : ReadsUrls host segmentsText)
    (hmap : MapsToAscii host.domainToAscii) {u : Url}
    (hu : host.parseUrl x = some u) (hscheme : u.scheme = "https")
    (hn : u.host = some n) : HostShape host.domainToAscii n := by
  obtain ⟨text, h, hread, rfl⟩ := hurls.hostRead hu hscheme hn
  unfold parseHost at hread
  split at hread
  · exact nomatch hread
  · split at hread
    · split at hread
      · obtain rfl := Option.some.inj hread
        exact hurls.hostShape_bracketed _
      · exact nomatch hread
    · exact nomatch hread
  · obtain ⟨name, hmapped, hname⟩ := Option.bind_eq_some_iff.mp hread
    obtain ⟨t, _, ht⟩ := Option.bind_eq_some_iff.mp hmapped
    obtain ⟨_, hplain, ⟨_, rfl⟩ | ⟨ip, hip, rfl⟩⟩ := parseAscii_some hname
    · exact hmap.hostShape ht hplain
    · obtain ⟨a, b, c, d, rfl, hsmall⟩ := parseIpv4_octets hip
      exact hostShape_dotted hsmall

theorem HostShape.no_slash {toAscii : String → Option String}
    (h : HostShape toAscii n) : '/' ∉ n.toList := by
  intro hmem
  exact (hostChar_facts (h.chars _ hmem)).2.2.2 rfl

theorem HostShape.no_control {toAscii : String → Option String}
    (h : HostShape toAscii n) : n.toList.any isControl = false := by
  refine List.any_eq_false.mpr fun c hc => ?_
  rw [(hostChar_facts (h.chars c hc)).2.2.1]
  exact Bool.false_ne_true

/-- The characters of a host without its trailing dots. -/
theorem HostShape.trimmed_chars {toAscii : String → Option String}
    (h : HostShape toAscii n) {c : Char}
    (hc : c ∈ trimEndMatches n.toList '.') : isHostChar c = true :=
  h.chars c (mem_of_mem_trimEnd hc)

/-- **THE CANONICAL FORM OF A HOST** is the host without its trailing dots. -/
theorem HostShape.canonical (h : HostShape host.domainToAscii n)
    (hmap : MapsToAscii host.domainToAscii)
    (hk : canonicalizeDomain host n = .ok k) :
    k.toList = trimEndMatches n.toList '.'
      ∧ host.domainToAscii k = some k ∧ k.toList.length ≤ 320 := by
  obtain ⟨hbound, c, e, hc, he, rfl, _⟩ := canonicalizeDomain_ok.mp hk
  rw [domainCandidate_plain h.no_slash] at hc
  obtain rfl := Except.ok.inj hc
  have hascii : ∀ c ∈ (String.ofList (trimEndMatches n.toList '.')).toList,
      IsAscii c := by
    rw [String.toList_ofList]
    exact fun c hc => (hostChar_facts (h.trimmed_chars hc)).1
  have hlower : (trimEndMatches n.toList '.').map toAsciiLowercase
      = trimEndMatches n.toList '.' :=
    map_lower_eq fun c hc => (hostChar_facts (h.trimmed_chars hc)).2.1
  have heq : e.toList = trimEndMatches n.toList '.' := by
    rw [hmap.onAscii hascii he, String.toList_ofList, hlower]
  have hkept : String.ofList ((trimEndMatches e.toList '.').map
      toAsciiLowercase) = e := by
    rw [heq, trimEnd_trimEnd, hlower, ← heq, String.ofList_toList]
  rw [hkept]
  refine ⟨heq, hmap.idempotent he, ?_⟩
  rw [heq]
  exact (length_trimEnd_le _ _).trans (bounded_ok.mp hbound).2.1

/-! ## Canonicalizing again -/

/-- The name whose ASCII form is taken holds no control characters. -/
theorem ReadsUrls.candidate_plain (hurls : ReadsUrls host segmentsText)
    (hmap : MapsToAscii host.domainToAscii)
    (hx : x.toList.any isControl = false)
    (hc : domainCandidate host x = .ok y) : y.toList.any isControl = false := by
  unfold domainCandidate at hc
  split at hc
  · simp only [bind_eq_ok, orRefuse_eq_ok, refuseIf_eq_ok, not_or, not_not]
      at hc
    obtain ⟨u, hu, _, ⟨hscheme, _⟩, hhost⟩ := hc
    exact (hurls.hostShape hmap hu hscheme hhost).no_control
  · obtain rfl := Except.ok.inj hc
    rw [String.toList_ofList]
    refine List.any_eq_false.mpr fun c hmem => ?_
    exact List.any_eq_false.mp hx c (mem_of_mem_trimEnd hmem)

/-- **CANONICALIZING AGAIN** changes nothing exactly when the name did not
    expand beyond the bound. -/
theorem canonicalize_again (hmap : MapsToAscii host.domainToAscii)
    (hurls : ReadsUrls host segmentsText)
    (hx : canonicalizeDomain host x = .ok y) :
    canonicalizeDomain host y = .ok y ↔ ¬Expands host x := by
  obtain ⟨hbound, c, e, hc, he, hy, hcheck⟩ := canonicalizeDomain_ok.mp hx
  obtain ⟨hne, hslash⟩ := checkAsciiDomain_ok hcheck
  have hlower := hmap.lower (hmap.trimmed he)
  rw [String.toList_ofList] at hlower
  rw [hlower] at hy
  have hlist : y.toList = trimEndMatches e.toList '.' := by
    rw [hy, String.toList_ofList]
  have hfixed : trimEndMatches y.toList '.' = y.toList := by
    rw [hlist, trimEnd_trimEnd]
  have hmapped : host.domainToAscii y = some y := hy ▸ hmap.trimmed he
  have hplain : y.toList.any isControl = false := by
    have hencoded := hmap.plain (hurls.candidate_plain hmap
      (bounded_ok.mp hbound).2.2 hc) he
    rw [hlist]
    refine List.any_eq_false.mpr fun c hmem => ?_
    exact List.any_eq_false.mp hencoded c (mem_of_mem_trimEnd hmem)
  have hexpands : Expands host x ↔ 320 < y.toList.length := by
    rw [hlist]
    constructor
    · rintro ⟨c', e', hc', he', hlong⟩
      obtain rfl := Except.ok.inj (hc.symm.trans hc')
      obtain rfl := Option.some.inj (he.symm.trans he')
      exact hlong
    · exact fun hlong => ⟨c, e, hc, he, hlong⟩
  rw [hexpands, Nat.not_lt]
  constructor
  · exact fun hagain =>
      (bounded_ok.mp (canonicalizeDomain_ok.mp hagain).1).2.1
  · intro hshort
    refine canonicalizeDomain_ok.mpr ⟨bounded_ok.mpr ⟨hne, hshort, hplain⟩,
      y, y, ?_, hmapped, ?_, hcheck⟩
    · rw [domainCandidate_plain hslash, hfixed, String.ofList_toList]
    · rw [hfixed, hmap.lower hmapped, String.ofList_toList]

/-! ## Normal URLs -/

/-- An HTTPS URL without credentials or an explicit port. -/
structure Plain (u : Url) : Prop where
  scheme : u.scheme = "https"
  username : u.username = ""
  password : u.password = none
  port : u.port = none

theorem validateHttpsUrl_ok : validateHttpsUrl host x = .ok k
    ↔ ∃ u n, host.parseUrl x = some u ∧ Plain u ∧ u.host = some n
      ∧ canonicalizeDomain host n = .ok k := by
  unfold validateHttpsUrl
  simp only [bind_eq_ok, orRefuse_eq_ok, refuseIf_eq_ok, not_or, not_not,
    Bool.not_eq_true, Option.isSome_eq_false_iff, Option.isNone_iff_eq_none]
  constructor
  · rintro ⟨u, hu, _, ⟨hs, hn, hpass, hport⟩, n, hhost, hk⟩
    exact ⟨u, n, hu, ⟨hs, hn, hpass, hport⟩, hhost, hk⟩
  · rintro ⟨u, n, hu, hp, hhost, hk⟩
    exact ⟨u, hu, ⟨⟩, ⟨hp.scheme, hp.username, hp.password, hp.port⟩, n, hhost,
      hk⟩

theorem normalizeHttpsUrl_ok : normalizeHttpsUrl host x = .ok y
    ↔ ∃ k u u', validateHttpsUrl host x = .ok k ∧ host.parseUrl x = some u
      ∧ host.setHost u k = some u' ∧ u'.text = y := by
  unfold normalizeHttpsUrl
  simp only [bind_eq_ok, orRefuse_eq_ok, pure_eq_ok]
  constructor
  · rintro ⟨k, hk, u, hu, u', hset, htext⟩
    exact ⟨k, u, u', hk, hu, hset, htext⟩
  · rintro ⟨k, u, u', hk, hu, hset, htext⟩
    exact ⟨k, hk, u, hu, u', hset, htext⟩

/-- **RENUMBERING**: without the trailing dots of its host the URL names an
    IPv4 address in another spelling than four decimal octets. -/
def Renumbers (host : Host) (x : String) : Prop :=
  ∃ u n a b c d, host.parseUrl x = some u ∧ u.host = some n
    ∧ n.toList.getLast? = some '.'
    ∧ parseIpv4 (trimEndMatches n.toList '.') = some (.v4 a b c d)
    ∧ dotted a b c d ≠ trimEndMatches n.toList '.'

/-- A plain URL whose host is canonical is its own normal form. -/
theorem ReadsUrls.normal (hurls : ReadsUrls host segmentsText) {u : Url}
    (hu : host.parseUrl x = some u) (hp : Plain u) (hhost : u.host = some n)
    (hn : canonicalizeDomain host n = .ok n) :
    validateHttpsUrl host u.text = .ok n
      ∧ normalizeHttpsUrl host u.text = .ok u.text := by
  have htext := hurls.reparse hu
  have hvalid := validateHttpsUrl_ok.mpr ⟨u, n, htext, hp, hhost, hn⟩
  exact ⟨hvalid, normalizeHttpsUrl_ok.mpr
    ⟨n, u, u, hvalid, htext, hurls.sameHost htext hp.scheme hhost, rfl⟩⟩

/-- A name that lost its trailing dots is read again as a name or as an
    IPv4 address. -/
theorem parseHost_trimmed {toAscii : String → Option String} {h : UrlHost}
    (hs : HostShape toAscii n) (hlast : n.toList.getLast? = some '.')
    (hk : k.toList = trimEndMatches n.toList '.') (hmapped : toAscii k = some k)
    (hread : parseHost toAscii k.toList = some h) :
    (h = .domain k ∧ parseIpv4 k.toList = none)
      ∨ ∃ a b c d, h = .address (.v4 a b c d)
        ∧ parseIpv4 k.toList = some (.v4 a b c d)
        ∧ (a < 256 ∧ b < 256 ∧ c < 256 ∧ d < 256) := by
  have hallowed : ∀ c ∈ k.toList, isForbidden c = false := fun c hc =>
    (hs.name hlast).1 c (mem_of_mem_trimEnd (hk ▸ hc))
  have hforbidden : ∀ c, isForbidden c = true → c ∉ k.toList := by
    intro c hc hmem
    rw [hallowed c hmem] at hc
    exact Bool.false_ne_true hc
  have hne : k.toList ≠ [] := by
    intro hnil
    rw [hnil] at hread
    exact nomatch hread
  rw [parseHost_plain (fun c hc => (hostChar_facts
      (hs.trimmed_chars (hk ▸ hc))).1) (hforbidden '%' (by decide))
    (fun hhead => hforbidden '[' (by decide) (List.mem_of_head? hhead)) hne,
    String.ofList_toList, hmapped, Option.bind_some] at hread
  obtain ⟨_, _, ⟨hnumber, rfl⟩ | ⟨ip, hip, rfl⟩⟩ := parseAscii_some hread
  · refine Or.inl ⟨rfl, ?_⟩
    by_contra hsome
    obtain ⟨ip, hip⟩ := Option.ne_none_iff_exists'.mp hsome
    rw [endsInNumber_of_parseIpv4 hip] at hnumber
    exact nomatch hnumber
  · obtain ⟨a, b, c, d, rfl, hsmall⟩ := parseIpv4_octets hip
    exact Or.inr ⟨a, b, c, d, rfl, hip, hsmall⟩

/-- A URL that is normalized: parsed, judged by its host, and given the
    canonical host. -/
structure Normalizes (host : Host) (x : String) (u u' : Url) (n k : String) :
    Prop where
  parsed : host.parseUrl x = some u
  plain : Plain u
  hostOf : u.host = some n
  shape : HostShape host.domainToAscii n
  form : k.toList = trimEndMatches n.toList '.'
  mapped : host.domainToAscii k = some k
  fixed : canonicalizeDomain host k = .ok k
  valid : validateHttpsUrl host x = .ok k
  set : host.setHost u k = some u'

variable {u u' : Url}

theorem normalizes_of_ok (hmap : MapsToAscii host.domainToAscii)
    (hurls : ReadsUrls host segmentsText)
    (hx : normalizeHttpsUrl host x = .ok y) :
    ∃ u u' n k, Normalizes host x u u' n k ∧ u'.text = y := by
  obtain ⟨k, u, u', hk, hu, hset, htext⟩ := normalizeHttpsUrl_ok.mp hx
  obtain ⟨u0, n, hu0, hp, hn, hkn⟩ := validateHttpsUrl_ok.mp hk
  obtain rfl : u = u0 := Option.some.inj (hu.symm.trans hu0)
  have hs := hurls.hostShape hmap hu hp.scheme hn
  obtain ⟨hlist, hmapped, hshort⟩ := hs.canonical hmap hkn
  have hfixed : canonicalizeDomain host k = .ok k := by
    refine (canonicalize_again hmap hurls hkn).mpr ?_
    rintro ⟨c, e, hc, he, hlong⟩
    rw [domainCandidate_plain hs.no_slash] at hc
    obtain rfl := Except.ok.inj hc
    rw [← hlist, String.ofList_toList, hmapped] at he
    obtain rfl := Option.some.inj he
    exact absurd ((length_trimEnd_le _ _).trans hshort) (Nat.not_le.mpr hlong)
  exact ⟨u, u', n, k,
    ⟨hu, hp, hn, hs, hlist, hmapped, hfixed, hk, hset⟩, htext⟩

theorem Normalizes.renumbers_iff (h : Normalizes host x u u' n k) :
    Renumbers host x ↔ n.toList.getLast? = some '.'
      ∧ ∃ a b c d, parseIpv4 k.toList = some (.v4 a b c d)
        ∧ dotted a b c d ≠ k.toList := by
  rw [h.form]
  constructor
  · rintro ⟨u1, n1, a, b, c, d, hu1, hn1, hlast, hread, hne⟩
    obtain rfl := Option.some.inj (h.parsed.symm.trans hu1)
    obtain rfl := Option.some.inj (h.hostOf.symm.trans hn1)
    exact ⟨hlast, a, b, c, d, hread, hne⟩
  · rintro ⟨hlast, a, b, c, d, hread, hne⟩
    exact ⟨u, n, a, b, c, d, h.parsed, h.hostOf, hlast, hread, hne⟩

/-- A URL that has its canonical host is normal. -/
theorem Normalizes.again (h : Normalizes host x u u' n k)
    (hurls : ReadsUrls host segmentsText) {x' : String}
    (hx' : host.parseUrl x' = some u') (hp : Plain u')
    (hhost : u'.host = some k) :
    normalizeHttpsUrl host u'.text = .ok u'.text
      ∧ validateHttpsUrl host u'.text = validateHttpsUrl host x := by
  obtain ⟨hvalid, hnormal⟩ := hurls.normal hx' hp hhost h.fixed
  exact ⟨hnormal, hvalid.trans h.valid.symm⟩

/-- A URL whose host became an address names the address. -/
theorem Normalizes.apart (h : Normalizes host x u u' n k)
    (hmap : MapsToAscii host.domainToAscii)
    (hu' : host.parseUrl u'.text = some u') {a b c d : Nat}
    (hsmall : a < 256 ∧ b < 256 ∧ c < 256 ∧ d < 256)
    (hhost : u'.host = some (String.ofList (dotted a b c d)))
    (hne : dotted a b c d ≠ k.toList) :
    validateHttpsUrl host u'.text ≠ validateHttpsUrl host x := by
  intro hvalid
  obtain ⟨u1, n1, hu1, _, hn1, hk1⟩ :=
    validateHttpsUrl_ok.mp (hvalid.trans h.valid)
  obtain rfl := Option.some.inj (hu'.symm.trans hu1)
  obtain rfl := Option.some.inj (hhost.symm.trans hn1)
  have hform := ((hostShape_dotted hsmall).canonical hmap hk1).1
  rw [String.toList_ofList, trimEnd_of_last (dotted_last a b c d)] at hform
  exact hne hform.symm

/-- **NORMALIZING AGAIN** changes nothing and names the same host exactly
    when no address was made of the host. -/
theorem normalize_again (hmap : MapsToAscii host.domainToAscii)
    (hurls : ReadsUrls host segmentsText)
    (hx : normalizeHttpsUrl host x = .ok y) :
    (normalizeHttpsUrl host y = .ok y
        ∧ validateHttpsUrl host y = validateHttpsUrl host x)
      ↔ ¬Renumbers host x := by
  obtain ⟨u, u', n, k, h, rfl⟩ := normalizes_of_ok hmap hurls hx
  rw [h.renumbers_iff]
  by_cases hlast : n.toList.getLast? = some '.'
  · have hcolon : ':' ∉ k.toList := by
      intro hmem
      have hno := (h.shape.name hlast).1 ':' (mem_of_mem_trimEnd (h.form ▸ hmem))
      exact absurd hno (by decide)
    obtain ⟨hu', target, hread, heq⟩ :=
      hurls.setHost h.parsed h.plain.scheme hcolon h.set
    have hp : Plain u' := by
      rw [heq]
      exact ⟨h.plain.scheme, h.plain.username, h.plain.password, h.plain.port⟩
    have hhost : u'.host = some (target.print segmentsText) := by rw [heq]
    rcases parseHost_trimmed h.shape hlast h.form h.mapped hread with
      ⟨rfl, hnone⟩ | ⟨a, b, c, d, rfl, hip, hsmall⟩
    · refine iff_of_true (h.again hurls hu' hp hhost) ?_
      rintro ⟨_, _, _, _, _, hip, _⟩
      exact nomatch hnone.symm.trans hip
    · by_cases hsame : dotted a b c d = k.toList
      · have hname : u'.host = some k := by
          rw [hhost]
          show some (String.ofList (dotted a b c d)) = _
          rw [hsame, String.ofList_toList]
        refine iff_of_true (h.again hurls hu' hp hname) ?_
        rintro ⟨_, _, _, _, _, hip', hne⟩
        rw [hip] at hip'
        cases hip'
        exact hne hsame
      · refine iff_of_false ?_ (not_not.mpr ⟨hlast, a, b, c, d, hip, hsame⟩)
        exact fun hagain => h.apart hmap hu' hsmall hhost hsame hagain.2
  · -- the canonical host is the host, and setting it changes nothing
    have hkn : k = n :=
      String.toList_injective (h.form.trans (trimEnd_of_last hlast))
    subst hkn
    obtain rfl : u = u' := Option.some.inj
      ((hurls.sameHost h.parsed h.plain.scheme h.hostOf).symm.trans h.set)
    exact iff_of_true (h.again hurls h.parsed h.plain h.hostOf)
      (fun hrenumbers => hlast hrenumbers.1)

/-! ## Normal requests -/

/-- A list whose elements are normalized one by one. -/
theorem mapM_again {f g : String → Except TreasuryError String}
    {bad : String → Prop} {xs ys : List String}
    (hone : ∀ {x y}, f x = .ok y → ((f y = .ok y ∧ g y = g x) ↔ ¬bad x))
    (h : xs.mapM f = .ok ys) :
    (ys.mapM f = .ok ys ∧ ys.map g = xs.map g) ↔ ∀ x ∈ xs, ¬bad x := by
  induction xs generalizing ys with
  | nil =>
      obtain rfl : [] = ys := Except.ok.inj h
      exact iff_of_true ⟨rfl, rfl⟩ fun _ hmem => nomatch hmem
  | cons x xs ih =>
      simp only [List.mapM_cons, bind_eq_ok, pure_eq_ok] at h
      obtain ⟨y, hy, ys, hys, rfl⟩ := h
      rw [List.forall_mem_cons, ← hone hy, ← ih hys]
      simp only [List.mapM_cons, bind_eq_ok, pure_eq_ok, List.map_cons,
        List.cons.injEq]
      constructor
      · rintro ⟨⟨_, hy', _, hys', rfl, rfl⟩, hg, hgs⟩
        exact ⟨⟨hy', hg⟩, hys', hgs⟩
      · rintro ⟨⟨hy', hg⟩, hys', hgs⟩
        exact ⟨⟨_, hy', _, hys', rfl, rfl⟩, hg, hgs⟩

theorem normalizeRequest_ok {r r' : PurchaseRequest} :
    normalizeRequest host r = .ok r' ↔ ∃ merchant chain,
      canonicalizeDomain host r.merchantDomain = .ok merchant
        ∧ r.redirectChain.mapM (normalizeHttpsUrl host) = .ok chain
        ∧ r' = { r with merchantDomain := merchant, redirectChain := chain } := by
  unfold normalizeRequest
  simp only [bind_eq_ok, pure_eq_ok]
  constructor
  · rintro ⟨merchant, hm, chain, hc, rfl⟩
    exact ⟨merchant, chain, hm, hc, rfl⟩
  · rintro ⟨merchant, chain, hm, hc, rfl⟩
    exact ⟨merchant, hm, chain, hc, rfl⟩

/-- **A STORED REQUEST** is its own normal form, with the hosts it had,
    exactly when nothing in it expanded or was renumbered. -/
theorem normalizeRequest_again (hmap : MapsToAscii host.domainToAscii)
    (hurls : ReadsUrls host segmentsText) {r r' : PurchaseRequest}
    (h : normalizeRequest host r = .ok r') :
    (normalizeRequest host r' = .ok r'
        ∧ r'.redirectChain.map (validateHttpsUrl host)
          = r.redirectChain.map (validateHttpsUrl host))
      ↔ ¬Expands host r.merchantDomain
        ∧ ∀ redirect ∈ r.redirectChain, ¬Renumbers host redirect := by
  obtain ⟨merchant, chain, hm, hc, rfl⟩ := normalizeRequest_ok.mp h
  rw [← canonicalize_again hmap hurls hm,
    ← mapM_again (normalize_again hmap hurls) hc, normalizeRequest_ok]
  constructor
  · rintro ⟨⟨merchant', chain', hm', hc', heq⟩, hhosts⟩
    have hmerchant : merchant = merchant' :=
      congrArg PurchaseRequest.merchantDomain heq
    have hchain : chain = chain' := congrArg PurchaseRequest.redirectChain heq
    subst hmerchant
    subst hchain
    exact ⟨hm', hc', hhosts⟩
  · rintro ⟨hm', hc', hhosts⟩
    exact ⟨⟨merchant, chain, hm', hc', rfl⟩, hhosts⟩

/-! ## Approved merchants -/

/-- Every approved merchant passes the check of a stored merchant. -/
def MerchantsCanonical (host : Host) (s : TreasuryState) : Prop :=
  ∀ id r, s.agents.get? id = some r → r.approvedMerchants.keys.forM
    (Policy.checkCanonical host "persisted approved merchant is not canonical")
      = .ok ⟨⟩

theorem merchantsCanonical_iff {s : TreasuryState} : MerchantsCanonical host s
    ↔ ∀ id r, s.agents.get? id = some r → ∀ m v,
      r.approvedMerchants.get? m = some v → canonicalizeDomain host m = .ok m := by
  unfold MerchantsCanonical
  simp only [forM_eq_ok, checkCanonical_ok, SortedMap.mem_keys]
  constructor
  · exact fun h id r hr m v hv => h id r hr m ⟨v, hv⟩
  · exact fun h id r hr m ⟨v, hv⟩ => h id r hr m v hv

variable {w w' w0 : World} {l : Label} {c : Call}

/-- A change that approves no merchant. -/
def Unapproving (l : Label) : Prop :=
  ∀ id merchant, l ≠ .editAgent id (.approveMerchant merchant)

theorem Edited.merchants_kept {r r' : AgentRecord} {edit : AgentEdit}
    (h : Edited host w w' r edit r')
    (hno : ∀ merchant, edit ≠ .approveMerchant merchant) :
    r'.approvedMerchants = r.approvedMerchants := by
  cases h with
  | approveMerchant => exact absurd rfl (hno _)
  | _ => rfl

theorem Change.merchants (h : Change host l w w') (hl : Unapproving l)
    (hw : MerchantsCanonical host w.state) : MerchantsCanonical host w'.state := by
  rw [merchantsCanonical_iff] at hw ⊢
  rcases h.agents with hs | ⟨id', _, _, r', _, _, hn, hs⟩
    | ⟨id', edit, old, r', rfl, hold, he, hs⟩
  · rw [hs]
    exact hw
  · intro id r hr m v hm
    rw [hs, SortedMap.get?_insert] at hr
    split at hr
    · obtain rfl := Option.some.inj hr
      rw [hn.merchants] at hm
      exact nomatch hm
    · exact hw id r hr m v hm
  · intro id r hr m v hm
    rw [hs, SortedMap.get?_insert] at hr
    split at hr
    · obtain rfl := Option.some.inj hr
      rw [he.merchants_kept fun merchant heq => hl id' merchant (heq ▸ rfl)] at hm
      exact hw id' old hold m v hm
    · exact hw id r hr m v hm

theorem Path.merchants {allowed : Label → Prop} (h : Path host allowed w w')
    (hl : ∀ l, allowed l → Unapproving l)
    (hw : MerchantsCanonical host w.state) : MerchantsCanonical host w'.state :=
  h.invariant (I := fun v => MerchantsCanonical host v.state)
    (fun l _ _ hlabel hc hv => hc.merchants (hl l hlabel) hv)
    (fun _ _ _ hv _ => hv) hw

/-- One more canonical merchant. -/
theorem MerchantsCanonical.withMerchant {s : TreasuryState}
    (hs : MerchantsCanonical host s) {agent merchant : String} {r : AgentRecord}
    (hr : s.agents.get? agent = some r)
    (hm : canonicalizeDomain host merchant = .ok merchant) :
    MerchantsCanonical host (s.withAgent agent { r with
      approvedMerchants := r.approvedMerchants.insert merchant () }) := by
  rw [merchantsCanonical_iff] at hs ⊢
  intro id r' hr' m v hv
  have hget : (s.agents.insert agent { r with
      approvedMerchants := r.approvedMerchants.insert merchant () }).get? id
        = some r' := hr'
  rw [SortedMap.get?_insert] at hget
  split at hget
  · obtain rfl := Option.some.inj hget
    have hv' : (r.approvedMerchants.insert merchant ()).get? m = some v := hv
    rw [SortedMap.get?_insert] at hv'
    split at hv'
    · rename_i hsame
      rw [hsame]
      exact hm
    · exact hs agent r hr m v hv'
  · exact hs id r' hget m v hv

/-- The owner approves a canonical form, which is canonical unless the name
    expands. -/
theorem ownerApproveMerchant_canonical {actor : Actor} {agent domain : String}
    (hmap : MapsToAscii host.domainToAscii)
    (hurls : ReadsUrls host segmentsText) (hno : ¬Expands host domain)
    (hw : MerchantsCanonical host w.state) :
    wp (ownerApproveMerchant host actor agent domain)
      (fun _ v => MerchantsCanonical host v.state)
      (fun _ v => MerchantsCanonical host v.state) w := by
  unfold ownerApproveMerchant
  rw [wp_bind, wp_readState]
  refine line_lift (fun _ => hw) fun _ _ => ?_
  refine line_lift (fun _ => hw) fun merchant hm => ?_
  refine line_orReject (fun _ => hw) fun r hr => ?_
  rw [wp_ite]
  refine ⟨fun _ => (wp_pure _).mpr hw, fun _ => ?_⟩
  refine line_rejectIf (fun _ => hw) fun _ => ?_
  rw [wp_bind, wp_putAgent, wp_bind]
  have hput := hw.withMerchant hr ((canonicalize_again hmap hurls hm).mpr hno)
  refine wp_audit (fun _ => hput) fun _ => ?_
  rw [wp_pure]
  exact hput

theorem permits_unapproving {actor : Actor} {request : Request}
    (h : permits actor request l)
    (hno : ∀ agent domain, request ≠ .ownerApproveMerchant agent domain) :
    Unapproving l := by
  rintro id merchant rfl
  cases request with
  | ownerApproveMerchant agent domain => exact hno agent domain rfl
  | ownerRotateAgentCapability => exact nomatch h.2.2
  | ownerSetAgentMode => exact nomatch h.2.2
  | ownerRevokeAgent => exact nomatch h.2.2
  | ownerArmAgentSession => exact nomatch h.2.2
  | ownerSetEmergencyStop => exact nomatch h.2.2
  | _ => exact h.elim

/-- A call that approves no name that expands. -/
def Contained (host : Host) (c : Call) : Prop :=
  ∀ token agent domain,
    c.asks = some (token, .ownerApproveMerchant agent domain) →
    ¬Expands host domain

/-- A call that approves no expanding name keeps merchants canonical. -/
theorem exec_merchants (hmap : MapsToAscii host.domainToAscii)
    (hurls : ReadsUrls host segmentsText) (hwork : Workable w.state)
    (hc : Contained host c) (hw : MerchantsCanonical host w.state) :
    MerchantsCanonical host (exec host c w).state := by
  by_cases hasks : ∃ token agent domain,
      c.asks = some (token, .ownerApproveMerchant agent domain)
  · obtain ⟨token, agent, domain, hasks⟩ := hasks
    refine exec_leaves (P := MerchantsCanonical host) hasks rfl hw ?_
    refine line_quiet (authenticate_quietly token) (fun _ _ h => h.state ▸ hw)
      fun actor a ha => ?_
    exact ownerApproveMerchant_canonical hmap hurls (hc _ _ _ hasks)
      (ha.state ▸ hw)
  · have hsaving : ∀ l, Saving l → Unapproving l := by
      rintro _ hl id merchant rfl
      exact hl
    have hbehaves : Behaves host w (exec host c w) c := exec_behaves hwork c
    cases hbehaves with
    | attempt _ h =>
        refine h.path.merchants ?_ hw
        rintro _ hl id merchant rfl
        exact (hl : False ∨ False).elim False.elim False.elim
    | recovery h =>
        refine h.path.merchants ?_ hw
        rintro _ hl id merchant rfl
        exact hl
    | ordinary hasks' _ h =>
        cases h with
        | refused hp => exact hp.merchants hsaving hw
        | served _ hp =>
            refine hp.merchants (fun l hl => ?_) hw
            rcases hl with hl | hl
            · refine permits_unapproving hl fun agent domain heq => ?_
              exact hasks ⟨_, agent, domain, heq ▸ hasks'⟩
            · exact hsaving l hl

theorem throughout_contained {cs : List Call}
    (h : ∀ c ∈ cs, Contained host c) :
    Throughout (exec host) (fun c _ => Contained host c) w cs := by
  induction cs generalizing w with
  | nil => exact trivial
  | cons c cs ih =>
      exact ⟨h c (List.mem_cons_self ..),
        ih fun d hd => h d (List.mem_cons_of_mem _ hd)⟩

theorem Started.merchants {balance : Money} {token : String}
    (h : Started host balance token w) : MerchantsCanonical host w.state := by
  obtain ⟨_, _, _, _, _, _, _, _, hs⟩ := h.state
  rw [hs]
  intro id r hr
  exact nomatch hr

/-! ## The theorem -/

/-- **CANONICAL FORMS ARE FIXED**: a canonical domain is its own canonical form
    exactly when the name did not expand; a normal URL is its own normal form
    and names the same host exactly when its host was not renumbered; a normal
    request is normal exactly when both hold of all its parts; and in every
    run that approves no expanding name every approved merchant passes the
    check of a stored one. -/
theorem canonical_forms_are_fixed (hmap : MapsToAscii host.domainToAscii)
    (hurls : ReadsUrls host segmentsText) :
    (∀ x y, canonicalizeDomain host x = .ok y →
      (canonicalizeDomain host y = .ok y ↔ ¬Expands host x))
    ∧ (∀ x y, normalizeHttpsUrl host x = .ok y →
      ((normalizeHttpsUrl host y = .ok y
          ∧ validateHttpsUrl host y = validateHttpsUrl host x)
        ↔ ¬Renumbers host x))
    ∧ (∀ r r', normalizeRequest host r = .ok r' →
      ((normalizeRequest host r' = .ok r'
          ∧ r'.redirectChain.map (validateHttpsUrl host)
            = r.redirectChain.map (validateHttpsUrl host))
        ↔ ¬Expands host r.merchantDomain
          ∧ ∀ redirect ∈ r.redirectChain, ¬Renumbers host redirect))
    ∧ ∀ owner w0 cs w, TreasuryRun host owner w0 cs w →
      (∀ c ∈ cs, Contained host c) → MerchantsCanonical host w.state := by
  refine ⟨fun _ _ hx => canonicalize_again hmap hurls hx,
    fun _ _ hx => normalize_again hmap hurls hx,
    fun _ _ hr => normalizeRequest_again hmap hurls hr, ?_⟩
  intro owner w0 cs w hrun hcontained
  obtain ⟨balance, hs⟩ := hrun.balance
  refine (hrun.calls.invariantThroughout (I := fun v => Kept v.state ∧ Fits v
    ∧ MerchantsCanonical host v.state) (throughout_contained hcontained)
    ⟨hs.kept, hs.fits, hs.merchants⟩ ?_).2.2
  rintro d v hd ⟨hk, hf, hm⟩ hfit
  have hwork := hk.workable hf
  have hbeh : Behaves host v _ d := exec_behaves hwork d
  exact ⟨hbeh.path.kept hk, hfit, exec_merchants hmap hurls hwork hd hm⟩

/-! ## A host with a name that expands -/

/-- A text with its ASCII letters in lower case. -/
def lowerAscii (s : String) : String :=
  String.ofList (s.toList.map toAsciiLowercase)

/-- Forty-one labels of one letter each, and the same labels in ASCII. -/
def shortText : List Char := ['.'].intercalate (List.replicate 41 ['ü'])

/-- A domain whose labels are all encoded, longer than the limit. -/
def longText : List Char :=
  ['.'].intercalate (List.replicate 41 ['x', 'n', '-', '-', 't', 'd', 'a'])

/-- The name before its labels are encoded. -/
def shortLabels : String := String.ofList shortText

/-- The name after. -/
def longLabels : String := String.ofList longText

/-- A mapping to ASCII that encodes the one name and knows no other beyond
    ASCII. -/
def labelsToAscii (s : String) : Option String :=
  if s = shortLabels then some longLabels
  else if s.toList.all (fun c => decide (IsAscii c)) = true then
    some (lowerAscii s)
  else none

/-- The test of a list is a test of its characters. -/
theorem all_isAscii {l : List Char} :
    l.all (fun c => decide (IsAscii c)) = true ↔ ∀ c ∈ l, IsAscii c := by
  rw [List.all_eq_true]
  exact forall₂_congr fun _ _ => decide_eq_true_iff

theorem labelsToAscii_some {x y : String} (h : labelsToAscii x = some y) :
    (x = shortLabels ∧ y = longLabels)
      ∨ ((∀ c ∈ x.toList, IsAscii c) ∧ y = lowerAscii x) := by
  unfold labelsToAscii at h
  split at h
  · exact Or.inl ⟨‹_›, (Option.some.inj h).symm⟩
  · split at h
    · rename_i hall
      exact Or.inr ⟨all_isAscii.mp hall, (Option.some.inj h).symm⟩
    · exact nomatch h

theorem labelsToAscii_ascii {x : String} (h : ∀ c ∈ x.toList, IsAscii c) :
    labelsToAscii x = some (lowerAscii x) := by
  have hne : x ≠ shortLabels := by
    rintro rfl
    have hmem : 'ü' ∈ shortLabels.toList := by
      unfold shortLabels
      rw [String.toList_ofList]
      decide
    exact absurd (h 'ü' hmem) (by decide)
  unfold labelsToAscii
  rw [if_neg hne, if_pos (all_isAscii.mpr h)]

theorem lowerAscii_facts {x : String} (h : ∀ c ∈ x.toList, IsAscii c) :
    (∀ c ∈ (lowerAscii x).toList, IsAscii c)
      ∧ lowerAscii (lowerAscii x) = lowerAscii x := by
  unfold lowerAscii
  simp only [String.toList_ofList, List.map_map]
  constructor
  · intro c hc
    obtain ⟨d, hd, rfl⟩ := List.mem_map.mp hc
    exact (h d hd).cases (P := fun c => IsAscii (toAsciiLowercase c)) (by decide)
  · refine congrArg String.ofList (List.map_congr_left fun c hc => ?_)
    exact (h c hc).cases (P := fun c =>
      toAsciiLowercase (toAsciiLowercase c) = toAsciiLowercase c) (by decide)

/-- The long labels are ASCII in lower case, without control characters. -/
theorem longLabels_facts : (∀ c ∈ longLabels.toList, IsAscii c)
    ∧ lowerAscii longLabels = longLabels
    ∧ longLabels.toList.any isControl = false := by
  unfold lowerAscii longLabels
  rw [String.toList_ofList]
  exact ⟨all_isAscii.mp (by decide +kernel),
    congrArg String.ofList (by decide +kernel), by decide +kernel⟩

theorem labelsToAscii_maps : MapsToAscii labelsToAscii where
  idempotent := by
    intro x y h
    rcases labelsToAscii_some h with ⟨_, rfl⟩ | ⟨hascii, rfl⟩
    · rw [labelsToAscii_ascii longLabels_facts.1, longLabels_facts.2.1]
    · obtain ⟨hlower, hagain⟩ := lowerAscii_facts hascii
      rw [labelsToAscii_ascii hlower, hagain]
  ascii := by
    intro x y h
    rcases labelsToAscii_some h with ⟨_, rfl⟩ | ⟨hascii, rfl⟩
    · exact longLabels_facts.1
    · exact (lowerAscii_facts hascii).1
  onAscii := by
    intro x y hascii h
    rw [labelsToAscii_ascii hascii] at h
    rw [← Option.some.inj h]
    exact String.toList_ofList
  plain := by
    intro x y hplain h
    rcases labelsToAscii_some h with ⟨_, rfl⟩ | ⟨hascii, rfl⟩
    · exact longLabels_facts.2.2
    · unfold lowerAscii
      rw [String.toList_ofList, List.any_map]
      refine List.any_eq_false.mpr fun c hc => ?_
      have hc' := Bool.eq_false_iff.mpr (List.any_eq_false.mp hplain c hc)
      exact Bool.eq_false_iff.mp ((hascii c hc).cases (P := fun c =>
        isControl c = false → isControl (toAsciiLowercase c) = false)
        (by decide) hc')
  root := by
    intro short h
    rcases labelsToAscii_some h with ⟨hshort, _⟩ | ⟨hascii, hlower⟩
    · have hlast := congrArg (fun s => s.toList.getLast?) hshort
      unfold shortLabels at hlast
      simp only [String.toList_ofList, List.getLast?_concat] at hlast
      exact absurd hlast (by decide)
    · rw [String.toList_ofList] at hascii
      have hrest : ∀ c ∈ (String.ofList short).toList, IsAscii c := by
        rw [String.toList_ofList]
        exact fun c hc => hascii c (List.mem_append_left _ hc)
      rw [labelsToAscii_ascii hrest]
      have hlist := congrArg String.toList hlower
      unfold lowerAscii at hlist ⊢
      simp only [String.toList_ofList, List.map_append] at hlist ⊢
      rw [← (List.append_inj' hlist rfl).1]

/-- The URL of a host, without a path. -/
def originUrl (name : String) : Url :=
  ⟨"https", "", none, some name, none, "/", none, none,
    "https://" ++ name ++ "/"⟩

/-- The host that knows the labels, and the URL of a name and of the address
    it is renumbered to. -/
def namingHost : Host :=
  { stillHost with
    domainToAscii := labelsToAscii
    parseUrl := fun text =>
      [originUrl "8.8..", originUrl "8.0.0.8"].find? (fun u => u.text == text)
    setHost := fun u name =>
      if u.host = some name then some u
      else if u = originUrl "8.8.." ∧ name = "8.8" then some (originUrl "8.0.0.8")
      else none }

theorem namingHost_toAscii (s : String) :
    namingHost.domainToAscii s = labelsToAscii s := by
  unfold namingHost
  rfl

theorem namingHost_maps : MapsToAscii namingHost.domainToAscii := by
  unfold namingHost
  exact labelsToAscii_maps

theorem longLabels_toList : longLabels.toList = longText :=
  String.toList_ofList

/-- A text that is read as no address needs no check of one. -/
theorem checkAddress_of_none {s : String}
    (h4 : IpAddr.readIpv4 s.toList = none)
    (h6 : IpAddr.readIpv6 s.toList = none) : checkAddress s = .ok ⟨⟩ := by
  unfold checkAddress IpAddr.parse
  rw [h4, h6]

theorem longLabels_check : checkAsciiDomain longLabels = .ok ⟨⟩ := by
  have hname : longLabels ≠ "localhost" := by
    intro h
    have hlength := congrArg (fun s => s.toList.length) h
    simp only [longLabels_toList] at hlength
    exact absurd hlength (by decide +kernel)
  have haddress : checkAddress longLabels = .ok ⟨⟩ := by
    refine checkAddress_of_none ?_ ?_
    · rw [longLabels_toList]
      decide +kernel
    · rw [longLabels_toList]
      decide +kernel
  unfold checkAsciiDomain
  rw [haddress, longLabels_toList]
  simp only [bind_eq_ok, refuseIf_eq_ok, not_or]
  exact ⟨⟨⟩, ⟨by decide +kernel, by decide +kernel, by decide +kernel,
    by decide +kernel, by decide +kernel, hname, by decide +kernel⟩,
    ⟨⟩, trivial, by decide +kernel⟩

theorem shortLabels_canonical :
    canonicalizeDomain namingHost shortLabels = .ok longLabels := by
  have hlist : shortLabels.toList = shortText := String.toList_ofList
  have hmapped : namingHost.domainToAscii shortLabels = some longLabels := by
    rw [namingHost_toAscii]
    exact if_pos rfl
  refine canonicalizeDomain_ok.mpr ⟨bounded_ok.mpr ?_, shortLabels, longLabels,
    ?_, hmapped, ?_, longLabels_check⟩
  · rw [hlist]
    exact ⟨by decide, by decide, by decide⟩
  · rw [domainCandidate_plain (by rw [hlist]; decide), hlist]
    exact congrArg Except.ok (congrArg String.ofList (by decide))
  · rw [longLabels_toList]
    exact congrArg String.ofList (by decide +kernel)

theorem longLabels_refused : canonicalizeDomain namingHost longLabels
    = .error (.invalid "domain must contain 1..320 characters") := by
  have hlong : ¬longLabels.toList.length ≤ 320 := by
    rw [longLabels_toList]
    decide +kernel
  have hbound : bounded longLabels "domain" 320
      = .error (.invalid "domain must contain 1..320 characters") := by
    unfold bounded refuseIf
    rw [if_pos (Or.inr (Nat.not_le.mp hlong))]
    rfl
  unfold canonicalizeDomain
  rw [hbound]
  rfl

theorem namingHost_parsed {x : String} {u : Url}
    (h : namingHost.parseUrl x = some u) :
    (u = originUrl "8.8.." ∨ u = originUrl "8.0.0.8") ∧ u.text = x := by
  have hmem := List.mem_of_find?_eq_some h
  have htext := List.find?_some h
  rw [List.mem_cons, List.mem_singleton] at hmem
  exact ⟨hmem, beq_iff_eq.mp htext⟩

/-- No address of the example has segments. -/
def noSegments : List Nat → List Char := fun _ => [':', ':']

theorem namingHost_reads : ReadsUrls namingHost noSegments where
  segments := by
    intro ns c hc
    rw [noSegments, List.mem_cons, List.mem_singleton, or_self] at hc
    exact Or.inl hc
  reparse := by
    intro x u h
    obtain ⟨_, rfl⟩ := namingHost_parsed h
    exact h
  hostRead := by
    intro x u n h _ hn
    rcases (namingHost_parsed h).1 with rfl | rfl
    · cases hn
      exact ⟨"8.8..".toList, .domain "8.8..", by decide +kernel, rfl⟩
    · cases hn
      exact ⟨"8.0.0.8".toList, .address (.v4 8 0 0 8), by decide +kernel,
        by decide +kernel⟩
  sameHost := by
    intro x u n _ _ hn
    exact if_pos hn
  setHost := by
    intro x u k u' h _ _ hset
    change (if u.host = some k then some u
      else if u = originUrl "8.8.." ∧ k = "8.8" then some (originUrl "8.0.0.8")
      else none) = some u' at hset
    split at hset
    · rename_i hsame
      obtain rfl := Option.some.inj hset
      obtain ⟨hcases, rfl⟩ := namingHost_parsed h
      refine ⟨h, ?_⟩
      rcases hcases with rfl | rfl
      · cases hsame
        exact ⟨.domain "8.8..", by decide +kernel, rfl⟩
      · cases hsame
        exact ⟨.address (.v4 8 0 0 8), by decide +kernel, by decide +kernel⟩
    · split at hset
      · rename_i hdots
        obtain ⟨rfl, rfl⟩ := hdots
        obtain rfl := Option.some.inj hset
        exact ⟨by decide +kernel, .address (.v4 8 0 0 8), by decide +kernel,
          by decide +kernel⟩
      · exact nomatch hset

/-- A name in mixed case with a trailing dot has a fixed form. -/
theorem canonical_forms_are_fixed_plain :
    canonicalizeDomain namingHost "Shop.Example." = .ok "shop.example"
      ∧ canonicalizeDomain namingHost "shop.example" = .ok "shop.example" := by
  have hx : canonicalizeDomain namingHost "Shop.Example." = .ok "shop.example" := by
    decide +kernel
  have hfixed := (@canonical_forms_are_fixed namingHost noSegments
    namingHost_maps namingHost_reads).1 _ _ hx
  refine ⟨hx, hfixed.mpr ?_⟩
  rintro ⟨c, e, hc, he, hlong⟩
  obtain rfl : "Shop.Example" = c := Except.ok.inj
    ((by decide +kernel : domainCandidate namingHost "Shop.Example."
      = .ok "Shop.Example").symm.trans hc)
  obtain rfl : "shop.example" = e := Option.some.inj
    ((by decide +kernel : namingHost.domainToAscii "Shop.Example"
      = some "shop.example").symm.trans he)
  exact absurd hlong (by decide +kernel)

/-- **A FORM THAT IS NOT FIXED**: forty-one short labels are accepted and
    their ASCII form is refused; and the URL of a name that loses its dots
    names an address afterwards. -/
theorem canonical_form_refused :
    MapsToAscii namingHost.domainToAscii ∧ ReadsUrls namingHost noSegments
      ∧ canonicalizeDomain namingHost shortLabels = .ok longLabels
      ∧ canonicalizeDomain namingHost longLabels
        = .error (.invalid "domain must contain 1..320 characters")
      ∧ normalizeHttpsUrl namingHost "https://8.8../" = .ok "https://8.0.0.8/"
      ∧ validateHttpsUrl namingHost "https://8.8../" = .ok "8.8"
      ∧ validateHttpsUrl namingHost "https://8.0.0.8/" = .ok "8.0.0.8" :=
  ⟨namingHost_maps, namingHost_reads, shortLabels_canonical,
    longLabels_refused, by decide +kernel, by decide +kernel,
    by decide +kernel⟩

end Treasury
