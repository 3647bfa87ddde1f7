import Mathlib

/-!
# The tmux session of a Workspace

The Core names the tmux session of a Workspace after its display name and its id, and a Node only
takes sessions whose name has this form. Whatever the display name is, the Node accepts the name
that the Core makes of it, tmux reads it as a name, and Workspaces whose ids start differently have
different sessions (`workspaceTmuxSessionName_accepted`).

The Core and the Node go by the same tables of Unicode, of which little needs to be known.
-/

set_option autoImplicit false

namespace Termroom.Store

/-! ## 1. Unicode -/

/-- The methods of strings and characters, and what is known of ASCII and of spaces. -/
structure Unicode where
  nfkc : List Char → List Char
  casefold : List Char → List Char
  lower : List Char → List Char
  isalnum : Char → Bool
  isspace : Char → Bool
  ascii_isalnum : ∀ c : Char, c.toNat < 128 → isalnum c = c.isAlphanum
  ascii_isspace : ∀ c : Char, c.toNat < 128 →
    isspace c = decide (9 ≤ c.toNat ∧ c.toNat ≤ 13 ∨ 28 ≤ c.toNat ∧ c.toNat ≤ 32)
  space_isalnum : ∀ c, isspace c = true → isalnum c = false
  ascii_lower : ∀ first rest : List Char, (∀ c ∈ first, c.toNat < 128) →
    ∃ more, lower (first ++ rest) = first.map Char.toLower ++ more

/-- Unicode as far as ASCII goes. -/
def Unicode.ascii : Unicode where
  nfkc := id
  casefold text := text.map Char.toLower
  lower text := text.map Char.toLower
  isalnum := Char.isAlphanum
  isspace c := 9 ≤ c.toNat ∧ c.toNat ≤ 13 ∨ 28 ≤ c.toNat ∧ c.toNat ≤ 32
  ascii_isalnum _ _ := rfl
  ascii_isspace _ _ := rfl
  space_isalnum c h := by
    have hspace := of_decide_eq_true h
    simp [Char.isAlphanum, Char.isAlpha, Char.isUpper, Char.isLower, Char.isDigit,
      UInt32.le_iff_toNat_le]
    omega
  ascii_lower first rest _ := ⟨rest.map Char.toLower, List.map_append⟩

/-! ## 2. The Core -/

def WORKSPACE_TMUX_SESSION_PREFIX : List Char := "tr".toList

def WORKSPACE_TMUX_SESSION_ID_CHARS : Nat := 4

def WORKSPACE_TMUX_SESSION_SLUG_CHARS : Nat := 16

/-- The loop over the characters of the normalized name. -/
def slugParts (isalnum : Char → Bool) :
    (parts : List Char) → (separatorPending : Bool) → List Char → List Char
  | parts, _, [] => parts
  | parts, separatorPending, c :: normalized =>
    if isalnum c then
      slugParts isalnum (if separatorPending ∧ parts ≠ [] then parts ++ ['-', c] else parts ++ [c])
        false normalized
    else slugParts isalnum parts true normalized

/-- `text.rstrip("-")`. -/
def rstripDashes (text : List Char) : List Char := text.rdropWhile (· = '-')

/-- `text.strip("-")`. -/
def stripDashes (text : List Char) : List Char := rstripDashes (text.dropWhile (· = '-'))

/-- `text or "workspace"`. -/
def orWorkspace (text : List Char) : List Char := if text = [] then "workspace".toList else text

def hexDigits : List Char := "0123456789abcdef".toList

variable (u : Unicode)

def sessionSlug (displayName : List Char) : List Char :=
  let normalized := u.casefold (u.nfkc displayName)
  let slug := orWorkspace (stripDashes (slugParts u.isalnum [] false normalized))
  orWorkspace (rstripDashes (slug.take WORKSPACE_TMUX_SESSION_SLUG_CHARS))

def workspaceTmuxSessionName (displayName workspaceId : List Char) : Except String (List Char) :=
  let slug := sessionSlug u displayName
  let suffix := (u.lower workspaceId).take WORKSPACE_TMUX_SESSION_ID_CHARS
  if suffix.length ≠ WORKSPACE_TMUX_SESSION_ID_CHARS ∨ suffix.any (· ∉ hexDigits) then
    .error "Workspace id must begin with four hexadecimal characters"
  else .ok (WORKSPACE_TMUX_SESSION_PREFIX ++ '-' :: slug ++ '-' :: suffix)

example : workspaceTmuxSessionName .ascii "project.with:unsafe / separators".toList
    "A1B2000000".toList = .ok "tr-project-with-uns-a1b2".toList := by
  decide +kernel

/-! ## 3. The Node -/

/-- `NODE_LEGACY_SESSION_PATTERN.fullmatch`. -/
def legacySession (value : List Char) : Bool :=
  "termroom-".toList.isPrefixOf value &&
    let rest := value.drop 9
    1 ≤ rest.length && rest.length ≤ 112 &&
      rest.all fun c => c.isAlphanum || c = '_' || c = '-'

/-- `value.rsplit("-", 1)`: `none` where there is nothing to split at. -/
def rsplitDash (value : List Char) : Option (List Char × List Char) :=
  match value.reverse.dropWhile (· ≠ '-') with
  | [] => none
  | _ :: slug => some (slug.reverse, (value.reverse.takeWhile (· ≠ '-')).reverse)

def nodeSessionIsValid (value : List Char) : Bool :=
  if legacySession value then true
  else if ¬"tr-".toList.isPrefixOf value then false
  else
    match rsplitDash (value.drop 3) with
    | none => false
    | some (slug, suffix) =>
      1 ≤ slug.length && slug.length ≤ 16 && slug = stripDashes slug &&
        ¬['-', '-'] <:+: slug && slug.all (fun c => u.isalnum c || c = '-') &&
        suffix.length = 4 && suffix.all fun c => hexDigits.contains c

/-! ## 4. Slugs -/

/-- Words of letters and digits, with one dash between each two. -/
structure Slug (slug : List Char) : Prop where
  alnum : ∀ c ∈ slug, u.isalnum c = true ∨ c = '-'
  first : slug.head? ≠ some '-'
  last : slug.getLast? ≠ some '-'
  single : slug.IsChain fun a b => ¬(a = '-' ∧ b = '-')

variable {u} {slug parts : List Char} {c : Char}

theorem letters_isalnum {letters : List Char}
    (h : letters.all (fun d => d.toNat < 128 && d.isAlphanum) = true) (hc : c ∈ letters) :
    u.isalnum c = true := by
  have := List.all_eq_true.mp h c hc
  simp only [Bool.and_eq_true, decide_eq_true_eq] at this
  exact (u.ascii_isalnum c this.1).trans this.2

theorem dash_isalnum : u.isalnum '-' = false := u.ascii_isalnum '-' (by decide)

theorem ne_dash (h : u.isalnum c = true) : c ≠ '-' := by
  rintro rfl
  rw [dash_isalnum] at h
  cases h

theorem Slug.nil : Slug u [] := ⟨by simp, by simp, by simp, .nil⟩

theorem Slug.word (h : Slug u slug) (hc : u.isalnum c = true) : Slug u (slug ++ [c]) where
  alnum d hd := by
    rcases List.mem_append.mp hd with hd | hd
    · exact h.alnum d hd
    · exact .inl (List.mem_singleton.mp hd ▸ hc)
  first := by
    cases slug with
    | nil => simpa using ne_dash hc
    | cons d slug => exact h.first
  last := by simpa using ne_dash hc
  single := by
    refine List.isChain_append.mpr ⟨h.single, .singleton _, ?_⟩
    rintro a - b hb ⟨-, rfl⟩
    exact ne_dash hc (Option.some.inj hb)

theorem Slug.separated (h : Slug u slug) (hne : slug ≠ []) (hc : u.isalnum c = true) :
    Slug u (slug ++ ['-', c]) where
  alnum d hd := by
    rcases List.mem_append.mp hd with hd | hd
    · exact h.alnum d hd
    · rcases List.mem_cons.mp hd with rfl | hd
      · exact .inr rfl
      · exact .inl (List.mem_singleton.mp hd ▸ hc)
  first := by
    cases slug with
    | nil => exact absurd rfl hne
    | cons d slug => exact h.first
  last := by simpa using ne_dash hc
  single := by
    refine List.isChain_append.mpr ⟨h.single, ?_, ?_⟩
    · exact List.isChain_pair.mpr fun hdash => ne_dash hc hdash.2
    · rintro a ha b - ⟨rfl, -⟩
      exact h.last ha

theorem slugParts_slug {separatorPending : Bool} {normalized : List Char} (h : Slug u parts) :
    Slug u (slugParts u.isalnum parts separatorPending normalized) := by
  induction normalized generalizing parts separatorPending with
  | nil => exact h
  | cons c normalized ih =>
    unfold slugParts
    split_ifs with hc hdash
    · exact ih (h.separated hdash.2 hc)
    · exact ih (h.word hc)
    · exact ih h

theorem Slug.strip (h : Slug u slug) : stripDashes slug = slug := by
  have hfront : slug.dropWhile (· = '-') = slug := by
    cases slug with
    | nil => rfl
    | cons d slug =>
      have hd : d ≠ '-' := fun heq => h.first (congrArg some heq)
      simp [hd]
  unfold stripDashes rstripDashes
  rw [hfront, List.rdropWhile_eq_self_iff]
  intro hne hdash
  exact h.last (by rw [List.getLast?_eq_some_getLast hne, of_decide_eq_true hdash])

/-- A slug that is cut off is one, less a dash that it was cut off behind. -/
theorem Slug.cut (h : Slug u slug) (n : Nat) : Slug u (rstripDashes (slug.take n)) := by
  have hpart : rstripDashes (slug.take n) <+: slug :=
    List.IsPrefix.trans ( List.rdropWhile_prefix _ _) ( List.take_prefix n slug)
  refine ⟨fun c hc => h.alnum c (hpart.subset hc), ?_, ?_, List.IsChain.prefix h.single hpart⟩
  · obtain ⟨rest, heq⟩ := hpart
    cases hcut : rstripDashes (slug.take n) with
    | nil => simp
    | cons d cut =>
      rw [hcut] at heq
      have hfirst := h.first
      rw [← heq] at hfirst
      exact hfirst
  · intro hlast
    have hne : rstripDashes (slug.take n) ≠ [] := by
      intro hnil
      rw [hnil] at hlast
      cases hlast
    rw [List.getLast?_eq_some_getLast hne] at hlast
    exact List.rdropWhile_last_not _ _ hne (decide_eq_true (Option.some.inj hlast))

theorem workspace_slug : Slug u "workspace".toList where
  alnum _ hc := .inl (letters_isalnum (by decide +kernel) hc)
  first := by decide
  last := by decide
  single := by decide

theorem Slug.orWorkspace (h : Slug u slug) :
    Slug u (orWorkspace slug) ∧ Store.orWorkspace slug ≠ [] := by
  unfold Store.orWorkspace
  split_ifs with hnil
  · exact ⟨workspace_slug, by decide⟩
  · exact ⟨h, hnil⟩

/-- **The slug of a display name** is one, and not too long. -/
theorem sessionSlug_slug (displayName : List Char) :
    Slug u (sessionSlug u displayName) ∧ sessionSlug u displayName ≠ [] ∧
      (sessionSlug u displayName).length ≤ 16 := by
  have hparts : Slug u (slugParts u.isalnum [] false (u.casefold (u.nfkc displayName))) :=
    slugParts_slug .nil
  unfold sessionSlug
  dsimp only
  rw [hparts.strip]
  have hcut := hparts.orWorkspace.1.cut WORKSPACE_TMUX_SESSION_SLUG_CHARS
  refine ⟨hcut.orWorkspace.1, hcut.orWorkspace.2, ?_⟩
  generalize orWorkspace (slugParts u.isalnum [] false (u.casefold (u.nfkc displayName))) = slug
  unfold orWorkspace
  split_ifs
  · decide
  · have hpart : rstripDashes (slug.take WORKSPACE_TMUX_SESSION_SLUG_CHARS) <+: _ :=
      List.rdropWhile_prefix _ _
    exact hpart.length_le.trans (List.length_take_le _ _)

/-! ## 5. The Node accepts what the Core makes -/

theorem rsplitDash_join {suffix : List Char} (h : '-' ∉ suffix) :
    rsplitDash (slug ++ '-' :: suffix) = some (slug, suffix) := by
  have hreverse : (slug ++ '-' :: suffix).reverse = suffix.reverse ++ '-' :: slug.reverse := by
    simp
  have hplain : ∀ c ∈ suffix.reverse, decide (c ≠ '-') = true := by
    intro c hc
    exact decide_eq_true fun heq => h (heq ▸ List.mem_reverse.mp hc)
  unfold rsplitDash
  rw [hreverse, List.dropWhile_append_of_pos hplain, List.takeWhile_append_of_pos hplain]
  simp

/-- **The Node accepts** a slug and four hexadecimal digits. -/
theorem nodeSessionIsValid_name {suffix : List Char} (h : Slug u slug) (hne : slug ≠ [])
    (hlength : slug.length ≤ 16) (hfour : suffix.length = 4)
    (hhex : ∀ c ∈ suffix, c ∈ hexDigits) : nodeSessionIsValid u
      (WORKSPACE_TMUX_SESSION_PREFIX ++ '-' :: slug ++ '-' :: suffix) = true := by
  have hdash : '-' ∉ suffix := fun hmem => absurd (hhex _ hmem) (by decide)
  have hsplit := @rsplitDash_join slug suffix hdash
  have hpos : 1 ≤ slug.length := List.length_pos_iff.mpr hne
  have hsingle : ¬['-', '-'] <:+: slug := by
    intro hpair
    have := List.IsChain.infix h.single hpair
    simp at this
  have halnum : slug.all (fun c => u.isalnum c || c = '-') = true := by
    rw [List.all_eq_true]
    intro c hc
    simpa using h.alnum c hc
  have hsuffix : suffix.all (fun c => hexDigits.contains c) = true := by
    rw [List.all_eq_true]
    intro c hc
    simpa using hhex c hc
  unfold nodeSessionIsValid
  have hdrop : (WORKSPACE_TMUX_SESSION_PREFIX ++ '-' :: slug ++ '-' :: suffix).drop 3 =
      slug ++ '-' :: suffix := rfl
  have hstart : "tr-".toList.isPrefixOf
      (WORKSPACE_TMUX_SESSION_PREFIX ++ '-' :: slug ++ '-' :: suffix) = true := by
    simp [WORKSPACE_TMUX_SESSION_PREFIX, List.isPrefixOf]
  rw [hdrop, hsplit, hstart]
  simp only [halnum, hsuffix, h.strip, hfour, hpos, hlength, hsingle]
  simp

/-! ## 6. Session names -/

/-- A character that means something in a target of tmux. -/
def Meaning (u : Unicode) (c : Char) : Prop := c ∈ ['.', ':', '|', '@'] ∨ u.isspace c = true

theorem not_meaning (h : u.isalnum c = true ∨ c = '-') : ¬Meaning u c := by
  rintro (hmark | hspace)
  · have hascii : ['.', ':', '|', '@'].all
        (fun d => d.toNat < 128 ∧ d.isAlphanum = false ∧ d ≠ '-') = true := by decide
    obtain ⟨hsmall, hmark, hdash⟩ := of_decide_eq_true (List.all_eq_true.mp hascii c hmark)
    rcases h with h | h
    · rw [u.ascii_isalnum c hsmall, hmark] at h
      cases h
    · exact hdash h
  · rcases h with h | rfl
    · rw [u.space_isalnum c hspace] at h
      cases h
    · rw [u.ascii_isspace '-' (by decide)] at hspace
      exact absurd hspace (by decide)

/-- An id that begins with four hexadecimal characters, in either case. -/
structure WorkspaceId where
  value : List Char
  long : 4 ≤ value.length
  hex : ∀ c ∈ value.take 4, c ∈ "0123456789abcdefABCDEF".toList

/-- A UUID. -/
example : WorkspaceId := ⟨"3F2a91c0-5d6e-4b1f-9c3a-7e8d0f1b2a4c".toList, by decide, by simp⟩

/-- What the name has of an id. -/
def WorkspaceId.suffix (id : WorkspaceId) : List Char := (id.value.take 4).map Char.toLower

theorem WorkspaceId.suffix_hex (id : WorkspaceId) : ∀ c ∈ id.suffix, c ∈ hexDigits := by
  have hlower : "0123456789abcdefABCDEF".toList.all (fun d => d.toLower ∈ hexDigits) = true := by
    decide +kernel
  intro c hc
  obtain ⟨d, hd, rfl⟩ := List.mem_map.mp hc
  exact of_decide_eq_true (List.all_eq_true.mp hlower d (id.hex d hd))

theorem WorkspaceId.suffix_length (id : WorkspaceId) : id.suffix.length = 4 := by
  have := id.long
  unfold WorkspaceId.suffix
  rw [List.length_map, List.length_take]
  omega

theorem WorkspaceId.lower_take (id : WorkspaceId) :
    (u.lower id.value).take WORKSPACE_TMUX_SESSION_ID_CHARS = id.suffix := by
  have hascii : "0123456789abcdefABCDEF".toList.all (fun d => d.toNat < 128) = true := by
    decide +kernel
  obtain ⟨more, hmore⟩ := u.ascii_lower (id.value.take 4) (id.value.drop 4)
    fun c hc => of_decide_eq_true (List.all_eq_true.mp hascii c (id.hex c hc))
  rw [List.take_append_drop] at hmore
  rw [hmore]
  exact List.take_left' id.suffix_length

theorem workspaceTmuxSessionName_ok (displayName : List Char) (id : WorkspaceId) :
    workspaceTmuxSessionName u displayName id.value = .ok
      (WORKSPACE_TMUX_SESSION_PREFIX ++ '-' :: sessionSlug u displayName ++ '-' :: id.suffix) := by
  have haccepted : ¬(id.suffix.length ≠ WORKSPACE_TMUX_SESSION_ID_CHARS ∨
      id.suffix.any (· ∉ hexDigits) = true) := by
    rintro (hlength | hany)
    · exact hlength id.suffix_length
    · obtain ⟨c, hc, hnot⟩ := List.any_eq_true.mp hany
      exact of_decide_eq_true hnot (id.suffix_hex c hc)
  unfold workspaceTmuxSessionName
  dsimp only
  rw [id.lower_take, if_neg haccepted]

/-- **Session names made by the Core are accepted by the Node**, have no character with a meaning in
    a target of tmux, and differ where the ids start differently. -/
theorem workspaceTmuxSessionName_accepted (u : Unicode) (displayName : List Char)
    (id : WorkspaceId) : ∃ name,
      workspaceTmuxSessionName u displayName id.value = .ok name ∧
      nodeSessionIsValid u name = true ∧ (∀ c ∈ name, ¬Meaning u c) ∧
      ∀ (otherName : List Char) (other : WorkspaceId),
        (other.value.take 4).map Char.toLower ≠ (id.value.take 4).map Char.toLower →
        workspaceTmuxSessionName u otherName other.value ≠ .ok name := by
  obtain ⟨hslug, hne, hlength⟩ := @sessionSlug_slug u displayName
  refine ⟨_, workspaceTmuxSessionName_ok displayName id, ?_, ?_, ?_⟩
  · exact nodeSessionIsValid_name hslug hne hlength id.suffix_length id.suffix_hex
  · intro c hc
    apply not_meaning
    rcases List.mem_append.mp hc with hc | hc
    · rcases List.mem_append.mp hc with hc | hc
      · exact .inl (letters_isalnum (by decide +kernel) hc)
      · rcases List.mem_cons.mp hc with rfl | hc
        · exact .inr rfl
        · exact hslug.alnum c hc
    · rcases List.mem_cons.mp hc with rfl | hc
      · exact .inr rfl
      · exact .inl (letters_isalnum (by decide +kernel) (id.suffix_hex c hc))
  · intro otherName other hdiffer hsame
    rw [workspaceTmuxSessionName_ok] at hsame
    have hlengths : other.suffix.length = id.suffix.length := by
      rw [other.suffix_length, id.suffix_length]
    have hends := List.append_inj_right' (Except.ok.inj hsame) (by simp [hlengths])
    exact hdiffer (List.cons.inj hends).2

end Termroom.Store
