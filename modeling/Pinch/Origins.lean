import Mathlib.Data.List.TakeWhile

/-! The origins from which a browser may open a connection to the relay: how the list in
`PINCH_RELAY_ALLOWED_ORIGINS` is read, and how the header of a request is compared with it. -/

namespace Pinch

structure ParsedUrl where
  scheme : String
  host : String
  path : String
  rawQuery : String
  fragment : String

/-- `url.Parse` and `strings.ToLower`. -/
structure UrlLibrary where
  parse : String → Except String ParsedUrl
  toLower : String → String

/-- `unicode.IsSpace`. -/
def isSpace (c : Char) : Bool :=
  let n := c.toNat
  (9 ≤ n && n ≤ 13) || n = 32 || n = 0x85 || n = 0xA0 || n = 0x1680 ||
    (0x2000 ≤ n && n ≤ 0x200A) || n = 0x2028 || n = 0x2029 || n = 0x202F || n = 0x205F || n = 0x3000

def trimSpace (s : String) : String :=
  String.ofList (((s.toList.dropWhile isSpace).reverse.dropWhile isSpace).reverse)

/-- The parts of a text between its commas. -/
def parts (raw : String) : List String :=
  (raw.toList.splitOn ',').map String.ofList

structure AllowedOrigins where
  allowed : List String := []
  patterns : List String := []
  allowAll : Bool := false

section

variable (lib : UrlLibrary)

def canonicalOrigin (value : String) : Except String String :=
  let trimmed := trimSpace value
  if trimmed = "" then .ok ""
  else match lib.parse trimmed with
    | .error err => .error err
    | .ok parsed =>
      if parsed.scheme = "" ∨ parsed.host = "" then
        .error "origin must include scheme and host"
      else if parsed.path ≠ "" ∧ parsed.path ≠ "/" then
        .error "origin must not include a path"
      else if parsed.rawQuery ≠ "" ∨ parsed.fragment ≠ "" then
        .error "origin must not include query or fragment"
      else .ok (lib.toLower parsed.scheme ++ "://" ++ lib.toLower parsed.host)

/-- The loop of `parseAllowedOrigins`. -/
def parseParts : List String → AllowedOrigins → Except String AllowedOrigins
  | [], acc => .ok acc
  | part :: rest, acc =>
    if trimSpace part = "*" then parseParts rest { acc with allowAll := true }
    else match canonicalOrigin lib part with
      | .error err => .error err
      | .ok origin =>
        if origin = "" then parseParts rest acc
        else parseParts rest
          { acc with allowed := origin :: acc.allowed, patterns := acc.patterns ++ [origin] }

def parseAllowedOrigins (raw : String) : Except String AllowedOrigins :=
  if trimSpace raw = "" then .ok {}
  else parseParts lib (parts raw) {}

def isOriginAllowed (originHeader : String) (origins : AllowedOrigins) : Bool :=
  if origins.allowAll then true
  else if originHeader = "" then true
  else match canonicalOrigin lib originHeader with
    | .error _ => false
    | .ok origin => origin ∈ origins.allowed

/-- What the list permits: every origin when a part is a star, and an origin that one of the parts
names. A request without the header does not come from a page. -/
def OriginPermitted (raw originHeader : String) : Prop :=
  originHeader = "" ∨ (∃ part ∈ parts raw, trimSpace part = "*") ∨
    ∃ part ∈ parts raw, ∃ origin, origin ≠ "" ∧ canonicalOrigin lib part = .ok origin ∧
      canonicalOrigin lib originHeader = .ok origin

end

variable {lib : UrlLibrary} {acc origins : AllowedOrigins} {raw originHeader origin : String}

/-- The loop adds the origins that its parts name, and a star. -/
theorem parseParts_ok {l : List String} (h : parseParts lib l acc = .ok origins) :
    (origins.allowAll = true ↔ acc.allowAll = true ∨ ∃ part ∈ l, trimSpace part = "*") ∧
      ∀ origin, origin ∈ origins.allowed ↔ origin ∈ acc.allowed ∨
        ∃ part ∈ l, trimSpace part ≠ "*" ∧ origin ≠ "" ∧
          canonicalOrigin lib part = .ok origin := by
  induction l generalizing acc with
  | nil =>
    obtain rfl := Except.ok.inj h
    simp
  | cons part rest ih =>
    unfold parseParts at h
    by_cases hstar : trimSpace part = "*"
    · rw [if_pos hstar] at h
      have hrest := ih h
      simp [hrest, hstar]
    · rw [if_neg hstar] at h
      cases hparse : canonicalOrigin lib part with
      | error err => simp [hparse] at h
      | ok named =>
        simp only [hparse] at h
        by_cases hempty : named = ""
        · rw [if_pos hempty] at h
          have hrest := ih h
          simp only [hrest, List.mem_cons, exists_eq_or_imp, hstar, hparse, hempty]
          grind
        · rw [if_neg hempty] at h
          have hrest := ih h
          simp only [hrest, List.mem_cons, exists_eq_or_imp, hstar, hparse]
          grind

/-- A blank list has one part, which names nothing. -/
theorem parts_blank (h : trimSpace raw = "") : parts raw = [raw] := by
  have hends : (raw.toList.dropWhile isSpace).reverse.dropWhile isSpace = [] :=
    List.reverse_eq_nil_iff.1 (String.ofList_inj.1 h)
  have hspaces : raw.toList.dropWhile isSpace = [] := by
    by_contra hne
    have hfirst := List.dropWhile_eq_nil_iff.1 hends _ (List.mem_reverse.2 (List.head_mem hne))
    exact absurd hfirst (by simp [List.head_dropWhile_not])
  have hcomma : ',' ∉ raw.toList := fun hmem =>
    absurd (List.dropWhile_eq_nil_iff.1 hspaces _ hmem) (by decide)
  simp [parts, List.splitOn_eq_singleton hcomma]

theorem isOriginAllowed_iff (h : parseAllowedOrigins lib raw = .ok origins) :
    isOriginAllowed lib originHeader origins = true ↔ OriginPermitted lib raw originHeader := by
  have hlist : (origins.allowAll = true ↔ ∃ part ∈ parts raw, trimSpace part = "*") ∧
      ∀ origin, origin ∈ origins.allowed ↔ ∃ part ∈ parts raw, trimSpace part ≠ "*" ∧
        origin ≠ "" ∧ canonicalOrigin lib part = .ok origin := by
    unfold parseAllowedOrigins at h
    by_cases hblank : trimSpace raw = ""
    · rw [if_pos hblank] at h
      obtain rfl := Except.ok.inj h
      have hnone : canonicalOrigin lib raw = .ok "" := by simp [canonicalOrigin, hblank]
      simp only [parts_blank hblank, List.mem_singleton, exists_eq_left, hblank, hnone,
        Except.ok.injEq]
      grind
    · rw [if_neg hblank] at h
      simpa using parseParts_ok h
  unfold isOriginAllowed OriginPermitted
  rw [← hlist.1]
  by_cases hall : origins.allowAll = true
  · simp [hall]
  have hstar : ∀ part ∈ parts raw, trimSpace part ≠ "*" := by
    intro part hpart heq
    exact hall (hlist.1.2 ⟨part, hpart, heq⟩)
  by_cases hempty : originHeader = ""
  · simp [hempty]
  cases hheader : canonicalOrigin lib originHeader with
  | error err => simp [hall, hempty]
  | ok origin =>
    simp only [hall, hempty, Bool.false_eq_true, if_false, decide_eq_true_eq, hlist.2, false_or,
      Except.ok.injEq]
    constructor
    · rintro ⟨part, hpart, -, hne, hnamed⟩
      exact ⟨part, hpart, origin, hne, hnamed, rfl⟩
    · rintro ⟨part, hpart, _, hne, hnamed, rfl⟩
      exact ⟨part, hpart, hstar part hpart, hne, hnamed⟩

end Pinch
