import Aidars.Foundations.Substitution
import Aidars.Store.Rows

/-!
# What redacted metadata discloses

Redaction of parameters is a function of what is not under a credential-shaped key
(`redactValue_of_similar`), and keeps the rest of the tree but its texts (`preserved_redactValue`).

Texts that were redacted once are redacted again when a recovered specification is saved. This
changes nothing exactly when each inline credential of the text is followed by a separator, or by
nothing, and no URL hides user information behind a credential (`redactText_idem_iff`): the value of
a credential ends with its closing quote, even where the word goes on, and the marker that replaces
it can belong to user information, which the value could not.
-/

namespace Aidars

open Pattern

/-! ## The patterns of inline credentials -/

/-- The characters that end a value that is not quoted. -/
def isSeparator (c : Char) : Bool := isSpace c || c = ';' || c = '&' || c = '|'

/-- The characters of user information. -/
def isUserinfoChar (c : Char) : Bool := !(c = '/' || c = '@' || isSpace c)

theorem foldCase_of_isSpace {c : Char} (h : isSpace c = true) : foldCase c = c := by
  have hne : ∀ d, isSpace d = false → c ≠ d := by
    rintro d hd rfl
    rw [h] at hd
    cases hd
  have hlower : c.toLower = c := by
    refine Char.ext (UInt32.toNat_inj.1 ?_)
    have hnat := toNat_toLower c
    simp only [isSpace, Bool.or_eq_true, Bool.and_eq_true, decide_eq_true_eq, beq_iff_eq] at h
    rw [if_neg (by omega)] at hnat
    exact hnat
  unfold foldCase
  rw [if_neg (not_or.2 ⟨hne _ (by decide), hne _ (by decide)⟩), if_neg (hne _ (by decide)),
    if_neg (hne _ (by decide)), hlower]

/-- The words of inline credentials, folded. -/
def commandWords : List (List Char) :=
  ["password", "passwd", "token", "secret", "apikey", "api_key", "api-key", "accesskey",
    "access_key", "access-key", "authorization"].map String.toList

theorem matches_text {fold : Char → Char} {l x : List Char} :
    (text fold l).Matches x ↔ x.map fold = l := by
  induction l generalizing x with
  | nil => simp [text, Matches]
  | cons c l ih =>
    simp only [text, Matches, ih]
    constructor
    · rintro ⟨_, z, rfl, ⟨d, hd, rfl⟩, rfl⟩
      simpa using hd
    · intro h
      cases x with
      | nil => cases h
      | cons d x =>
        obtain ⟨hd, hx⟩ := List.cons.inj h
        exact ⟨[d], x, rfl, ⟨d, by simpa using hd, rfl⟩, hx⟩

theorem matches_joined {s t : String} {x : List Char} (h : (joined s t).Matches x) :
    x.map foldCase = s.toList ++ t.toList ∨ x.map foldCase = s.toList ++ '_' :: t.toList ∨
      x.map foldCase = s.toList ++ '-' :: t.toList := by
  obtain ⟨y, z, rfl, hy, u, v, rfl, hu, hv⟩ := h
  rw [word, matches_text] at hy hv
  rcases hu with ⟨c, hc, rfl⟩ | rfl
  · simp only [Bool.or_eq_true, decide_eq_true_eq] at hc
    rcases hc with rfl | rfl
    · exact .inr (.inl (by simp [hy, hv]; rfl))
    · exact .inr (.inr (by simp [hy, hv]; rfl))
  · exact .inl (by simp [hy, hv])

theorem mem_commandWords {x : List Char} (h : commandWord.Matches x) :
    x.map foldCase ∈ commandWords := by
  simp only [commandWord, anyOf, Matches, word, matches_text] at h
  rcases h with h | h | h | h | h | h | h
  · simp [commandWords, h]
  · simp [commandWords, h]
  · simp [commandWords, h]
  · simp [commandWords, h]
  · rcases matches_joined h with h | h | h <;> simp [commandWords, h]
  · rcases matches_joined h with h | h | h <;> simp [commandWords, h]
  · simp [commandWords, h]

/-- No word starts with another one. -/
theorem commandWords_prefix : ∀ w ∈ commandWords, ∀ w' ∈ commandWords, w <+: w' → w = w' := by
  decide +kernel

theorem commandWord_unique {x x' y y' : List Char} (hx : commandWord.Matches x)
    (hx' : commandWord.Matches x') (h : x ++ y = x' ++ y') : x = x' ∧ y = y' := by
  have hlength : x.length = x'.length := by
    have hpre : ∀ {x x' a : List Char}, commandWord.Matches x → commandWord.Matches x' →
        x' = x ++ a → x.length = x'.length := by
      rintro x x' a hx hx' rfl
      have heq := commandWords_prefix _ (mem_commandWords hx) _ (mem_commandWords hx')
        ⟨a.map foldCase, by rw [List.map_append]⟩
      simpa using congrArg List.length heq
    rcases List.append_eq_append_iff.1 h with ⟨a, ha, -⟩ | ⟨a, ha, -⟩
    · exact hpre hx hx' ha
    · exact (hpre hx' hx ha).symm
  exact List.append_inj h hlength

theorem commandWord_ne_nil {x : List Char} (hx : commandWord.Matches x) : x ≠ [] := by
  rintro rfl
  exact absurd (nullable_of_matches hx) (by decide)

theorem commandWord_ne_dash {x y z : List Char} (hx : commandWord.Matches x) :
    x ++ y ≠ '-' :: z := by
  cases x with
  | nil => exact absurd rfl (commandWord_ne_nil hx)
  | cons c x =>
    intro h
    obtain ⟨rfl, -⟩ := List.cons.inj h
    exact absurd (firsts_of_matches hx) (by decide)

/-- What is kept of an inline credential: an option, or an assignment. -/
theorem matches_commandPrefix {x : List Char} (h : commandPrefix.Matches x) :
    (∃ o w e, x = '-' :: (o ++ (w ++ e)) ∧ (o = [] ∨ o = ['-']) ∧ commandWord.Matches w ∧
      e ≠ [] ∧ (e = ['='] ∨ ∀ c ∈ e, isSpace c = true)) ∨
    ∃ w e e', x = w ++ (e ++ '=' :: e') ∧ commandWord.Matches w ∧ (∀ c ∈ e, isSpace c = true) ∧
      ∀ c ∈ e', isSpace c = true := by
  rcases h with ⟨_, _, rfl, ⟨c, hc, rfl⟩, o, _, rfl, ho, w, e, rfl, hw, he⟩ |
    ⟨w, _, rfl, hw, e, _, rfl, he, _, e', rfl, ⟨c, hc, rfl⟩, he'⟩
  · left
    refine ⟨o, w, e, by rw [of_decide_eq_true hc]; rfl, ?_, hw, ?_⟩
    · rcases ho with ⟨d, hd, rfl⟩ | rfl
      · exact .inr (by rw [of_decide_eq_true hd])
      · exact .inl rfl
    · rcases he with ⟨d, hd, rfl⟩ | ⟨_, _, rfl, ⟨d, hd, rfl⟩, hall⟩
      · exact ⟨by simp, .inl (by rw [of_decide_eq_true hd])⟩
      · exact ⟨by simp, .inr (List.forall_mem_cons.2 ⟨hd, hall⟩)⟩
  · exact .inr ⟨w, e, e', by rw [of_decide_eq_true hc]; rfl, hw, he, he'⟩

/-- What follows the sign does not depend on how the whitespace before it is read. -/
theorem spaces_unique {e e' y y' : List Char} (he : ∀ c ∈ e, isSpace c = true)
    (he' : ∀ c ∈ e', isSpace c = true) (h : e ++ '=' :: y = e' ++ '=' :: y') : y = y' := by
  have hdrop : ∀ {e y : List Char}, (∀ c ∈ e, isSpace c = true) →
      (e ++ '=' :: y).dropWhile isSpace = '=' :: y := by
    intro e y he
    rw [List.dropWhile_append_of_pos he, List.dropWhile_cons_of_neg (by decide)]
  have hsame := congrArg (List.dropWhile isSpace) h
  rw [hdrop he, hdrop he'] at hsame
  exact (List.cons.inj hsame).2

theorem isSeparator_of_longer {x z : List Char} {d : Char} (hx : commandPrefix.Matches x)
    (hxd : commandPrefix.Matches (x ++ d :: z)) : isSeparator d = true := by
  suffices h : isSpace d = true by simp [isSeparator, h]
  rcases matches_commandPrefix hx with
    ⟨o, w, e, rfl, ho, hw, hne, he⟩ | ⟨w, e, e₁, rfl, hw, he, he₁⟩
  · rcases matches_commandPrefix hxd with
      ⟨o', w', e', hsame, ho', hw', -, he'⟩ | ⟨w', e', e₁', hsame, hw', -, -⟩
    · rw [List.cons_append, List.cons.injEq] at hsame
      have htail : w ++ (e ++ d :: z) = w' ++ e' := by
        have hrest := hsame.2
        rcases ho with rfl | rfl <;> rcases ho' with rfl | rfl
        · simpa using hrest
        · exact absurd hrest (by simpa using commandWord_ne_dash hw)
        · exact absurd hrest.symm (by simpa using commandWord_ne_dash hw')
        · simpa using hrest
      obtain ⟨-, rfl⟩ := commandWord_unique hw hw' htail
      rcases he' with he' | he'
      · cases e with
        | nil => exact absurd rfl hne
        | cons c e => cases e <;> cases he'
      · exact he' d (by simp)
    · exact absurd hsame.symm (by simpa using commandWord_ne_dash hw')
  · rcases matches_commandPrefix hxd with
      ⟨o', w', e', hsame, ho', hw', -, he'⟩ | ⟨w', e', e₁', hsame, hw', he', he₁'⟩
    · exact absurd hsame (by simpa using commandWord_ne_dash hw)
    · have htail : w ++ (e ++ '=' :: (e₁ ++ d :: z)) = w' ++ (e' ++ '=' :: e₁') := by
        simpa using hsame
      obtain ⟨-, htail⟩ := commandWord_unique hw hw' htail
      obtain rfl := spaces_unique he he' htail
      exact he₁' d (by simp)

theorem firsts_commandPrefix_of_isSpace {d : Char} (h : isSpace d = true) :
    commandPrefix.firsts d = false := by
  have hne : ∀ c, isSpace c = false → d ≠ c := by
    rintro c hc rfl
    rw [h] at hc
    cases hc
  have hdash := hne '-' (by decide)
  have hp := hne 'p' (by decide)
  have ht := hne 't' (by decide)
  have hs := hne 's' (by decide)
  have ha := hne 'a' (by decide)
  simp [commandPrefix, commandWord, anyOf, joined, word, text, opt, firsts, nullable,
    foldCase_of_isSpace h, hdash, hp, ht, hs, ha]

theorem firsts_commandValue_of_isSpace {d : Char} (h : isSpace d = true) :
    commandValue.firsts d = false := by
  have hdouble : d ≠ '"' := by
    rintro rfl
    exact absurd h (by decide)
  have hsingle : d ≠ '\'' := by
    rintro rfl
    exact absurd h (by decide)
  simp [commandValue, anyOf, Pattern.some, firsts, nullable, h, hdouble, hsingle]

theorem ends_commandValue (s : List Char) :
    ends 0 commandValue ('[' :: s) = manyEnds (fun c => !isSeparator c) s := by
  have h : ends 0 commandValue ('[' :: s) = [s].flatMap (manyEnds fun c => !isSeparator c) := rfl
  rw [h, List.flatMap_singleton]

/-- **The marker is itself the value of an inline credential**, with what follows it up to the next
separator. -/
theorem replaces_command :
    Replaces commandPrefix commandValue isSeparator '[' REDACTED_PARAMETER_VALUE.toList where
  plain_keep := by decide
  plain_body := by decide
  nullable_keep := by decide
  head := by decide
  marker := by decide
  stop_marker := by decide
  nullable_body := by decide
  starts d hd := by
    simp only [isSeparator, Bool.or_eq_true, decide_eq_true_eq] at hd
    rcases hd with ((hs | rfl) | rfl) | rfl
    · exact ⟨firsts_commandPrefix_of_isSpace hs, firsts_commandValue_of_isSpace hs⟩
    · decide
    · decide
    · decide
  body_one d hd := by
    have hkept : (!isSeparator d) = true := by rw [hd]; rfl
    exact .inr (.inr ⟨[d], [], rfl, ⟨d, hkept, rfl⟩, by simp [Matches]⟩)
  longer x d z hx hxd := isSeparator_of_longer hx hxd
  again r := by
    have hkept : ∀ c ∈ "REDACTED]".toList, (!isSeparator c) = true :=
      List.all_eq_true.1 (by decide)
    have hmarker : REDACTED_PARAMETER_VALUE.toList ++ r = '[' :: ("REDACTED]".toList ++ r) := rfl
    rw [hmarker, ends_commandValue, head?_manyEnds, List.dropWhile_append_of_pos hkept]

/-! ## The user information of URLs -/

theorem scans_url : Scans urlScheme urlUserinfo where
  plain_keep := by decide
  plain_body := by decide
  nullable_keep := by decide

theorem matches_some {p : Char → Bool} {x : List Char} :
    (Pattern.some p).Matches x ↔ x ≠ [] ∧ ∀ c ∈ x, p c = true := by
  constructor
  · rintro ⟨_, z, rfl, ⟨c, hc, rfl⟩, hz⟩
    exact ⟨by simp, List.forall_mem_cons.2 ⟨hc, hz⟩⟩
  · rintro ⟨hne, hall⟩
    cases x with
    | nil => exact absurd rfl hne
    | cons c x =>
      obtain ⟨hc, hx⟩ := List.forall_mem_cons.1 hall
      exact ⟨[c], x, rfl, ⟨c, hc, rfl⟩, hx⟩

/-- Two parts with a colon between them, and an at sign. -/
theorem matches_urlUserinfo {u : List Char} : urlUserinfo.Matches u ↔
    ∃ x y, u = x ++ ':' :: (y ++ ['@']) ∧ (x ≠ [] ∧ ∀ c ∈ x, isUserinfoChar c = true) ∧
      (y ≠ [] ∧ ∀ c ∈ y, isUserinfoChar c = true) := by
  constructor
  · rintro ⟨x, _, rfl, hx, _, _, rfl, ⟨c, hc, rfl⟩, y, _, rfl, hy, d, hd, rfl⟩
    refine ⟨x, y, ?_, matches_some.1 hx, matches_some.1 hy⟩
    rw [of_decide_eq_true hc, of_decide_eq_true hd]
    rfl
  · rintro ⟨x, y, rfl, hx, hy⟩
    exact ⟨x, _, rfl, matches_some.2 hx, [':'], _, rfl, ⟨':', rfl, rfl⟩, y, _, rfl,
      matches_some.2 hy, '@', rfl, rfl⟩

/-- A URL has user information, in a text of which inline credentials are read as single pieces. -/
def HidesUserinfo (l : List (Option Char)) : Prop :=
  ∃ w scheme x y z, l = w ++ (scheme.map .some ++ (x ++ .some ':' :: (y ++ .some '@' :: z))) ∧
    urlScheme.Matches scheme ∧ (x ≠ [] ∧ ∀ q ∈ x, q.all isUserinfoChar = true) ∧
    (y ≠ [] ∧ ∀ q ∈ y, q.all isUserinfoChar = true)

variable {l x : List (Option Char)}

theorem all_of_render
    (h : ∀ c ∈ render REDACTED_PARAMETER_VALUE.toList l, isUserinfoChar c = true) :
    ∀ q ∈ l, q.all isUserinfoChar = true := by
  intro q hq
  cases q with
  | none => rfl
  | some c => exact h c (List.mem_flatMap.2 ⟨_, hq, List.mem_singleton_self c⟩)

theorem render_ne_nil (h : l ≠ []) : render REDACTED_PARAMETER_VALUE.toList l ≠ [] := by
  cases l with
  | nil => exact absurd rfl h
  | cons q l => cases q <;> simp [REDACTED_PARAMETER_VALUE]

theorem forall_mem_render (h : ∀ q ∈ l, q.all isUserinfoChar = true) :
    ∀ c ∈ render REDACTED_PARAMETER_VALUE.toList l, isUserinfoChar c = true := by
  have hmarker : ∀ c ∈ REDACTED_PARAMETER_VALUE.toList, isUserinfoChar c = true :=
    List.all_eq_true.1 (by decide)
  intro c hc
  obtain ⟨q, hq, hc⟩ := List.mem_flatMap.1 hc
  cases q with
  | none => exact hmarker c hc
  | some d =>
    obtain rfl := List.mem_singleton.1 hc
    exact h _ hq

/-- A scheme starts with a character that the marker does not contain. -/
theorem scheme_head {scheme : List Char} (h : urlScheme.Matches scheme) :
    ∃ c rest, scheme = c :: rest ∧ c ∉ REDACTED_PARAMETER_VALUE.toList ∧ '[' ∉ rest := by
  cases scheme with
  | nil => exact absurd (nullable_of_matches h) (by decide)
  | cons c rest =>
    refine ⟨c, rest, rfl, fun hc => ?_, fun hmem => ?_⟩
    · have hnone : ∀ d ∈ REDACTED_PARAMETER_VALUE.toList, (!urlScheme.firsts d) = true :=
        List.all_eq_true.1 (by decide)
      have hfirst := hnone c hc
      rw [firsts_of_matches h] at hfirst
      cases hfirst
    · exact absurd (chars_of_matches h (List.mem_cons_of_mem c hmem)) (by decide)

/-- **User information shows after the substitution where it was hidden by inline credentials.** -/
theorem exists_userinfo_iff :
    (∃ w scheme u z, render REDACTED_PARAMETER_VALUE.toList l = w ++ (scheme ++ (u ++ z)) ∧
      urlScheme.Matches scheme ∧ urlUserinfo.Matches u) ↔ HidesUserinfo l := by
  have hcolon : ':' ∉ REDACTED_PARAMETER_VALUE.toList := by decide
  have hat : '@' ∉ REDACTED_PARAMETER_VALUE.toList := by decide
  constructor
  · rintro ⟨w, scheme, u, z, hl, hscheme, hu⟩
    obtain ⟨x, y, rfl, ⟨hx, hxall⟩, hy, hyall⟩ := matches_urlUserinfo.1 hu
    obtain ⟨c, rest, rfl, hc, hrest⟩ := scheme_head hscheme
    have hmarker : REDACTED_PARAMETER_VALUE.toList = '[' :: "REDACTED]".toList := rfl
    have htext : render REDACTED_PARAMETER_VALUE.toList l =
        w ++ c :: (rest ++ (x ++ ':' :: (y ++ '@' :: z))) := by
      rw [hl]
      simp
    -- what is kept of the text is read off one sign after the other
    obtain ⟨w, l₁, rfl, rfl, h₁⟩ := exists_of_render hc htext
    rw [hmarker] at h₁
    obtain ⟨l₂, rfl, h₂⟩ := exists_of_render_append hrest h₁
    rw [← hmarker] at h₂
    obtain ⟨x, l₃, rfl, rfl, h₃⟩ := exists_of_render hcolon h₂
    obtain ⟨y, z, rfl, rfl, -⟩ := exists_of_render hat h₃
    refine ⟨w, c :: rest, x, y, z, rfl, hscheme, ⟨?_, all_of_render hxall⟩, ?_,
      all_of_render hyall⟩
    · rintro rfl
      exact hx rfl
    · rintro rfl
      exact hy rfl
  · rintro ⟨w, scheme, x, y, z, rfl, hscheme, ⟨hx, hxall⟩, hy, hyall⟩
    refine ⟨render REDACTED_PARAMETER_VALUE.toList w, scheme, _,
      render REDACTED_PARAMETER_VALUE.toList z, ?_, hscheme, matches_urlUserinfo.2 ⟨_, _, rfl,
        ⟨render_ne_nil hx, forall_mem_render hxall⟩, render_ne_nil hy, forall_mem_render hyall⟩⟩
    simp

/-! ## Texts -/

/-- The inline credentials of a text, in which URLs have no user information. -/
def inlineCredentials (value : String) : List (Option Char) :=
  Pattern.pieces commandPrefix commandValue
    (subAfter urlScheme urlUserinfo (REDACTED_PARAMETER_VALUE ++ "@").toList value.toList)

/-- Each inline credential is followed by a separator or nothing, and none of them hides that a URL
has user information. -/
structure StableText (value : String) : Prop where
  delimited : Pattern.delimited isSeparator (inlineCredentials value) = true
  userinfo : ¬ HidesUserinfo (inlineCredentials value)

/-- **Redacting a text twice is redacting it once** iff it is stable. -/
theorem redactText_idem_iff (value : String) :
    redactText (redactText value) = redactText value ↔ StableText value := by
  have hcolon : ':' ∉ REDACTED_PARAMETER_VALUE.toList := by decide
  have hcolon' : ':' ∉ (REDACTED_PARAMETER_VALUE ++ "@").toList := by decide
  have hbody : ∀ u, urlUserinfo.Matches u → ':' ∈ u := by
    intro u hu
    obtain ⟨x, y, rfl, -⟩ := matches_urlUserinfo.1 hu
    simp
  set s := subAfter urlScheme urlUserinfo (REDACTED_PARAMETER_VALUE ++ "@").toList value.toList
    with hs
  set v := subAfter commandPrefix commandValue REDACTED_PARAMETER_VALUE.toList s with hv
  have hvalue : redactText value = String.ofList v := rfl
  have htwice : redactText (String.ofList v) = String.ofList (subAfter commandPrefix commandValue
      REDACTED_PARAMETER_VALUE.toList (subAfter urlScheme urlUserinfo
        (REDACTED_PARAMETER_VALUE ++ "@").toList v)) := by
    rw [redactText, String.toList_ofList]
  have hcredentials : inlineCredentials value = Pattern.pieces commandPrefix commandValue s := rfl
  have hcommand := replaces_command.subAfter_idem_iff s
  have hurl : subAfter urlScheme urlUserinfo (REDACTED_PARAMETER_VALUE ++ "@").toList v = v ↔
      ¬ HidesUserinfo (inlineCredentials value) := by
    rw [scans_url.subAfter_eq_self_iff hcolon' hbody, ← exists_userinfo_iff, hcredentials,
      ← subAfter_eq_render, ← hv]
    simp only [not_exists, not_and]
  rw [hvalue, htwice, String.ofList_inj]
  constructor
  · intro h
    -- no substitution adds a colon, so that the first one takes none away
    have hcount : v.count ':' ≤ (subAfter urlScheme urlUserinfo
        (REDACTED_PARAMETER_VALUE ++ "@").toList v).count ':' := by
      have hle := replaces_command.count_subAfter_le hcolon
        (subAfter urlScheme urlUserinfo (REDACTED_PARAMETER_VALUE ++ "@").toList v)
      rwa [h] at hle
    have hsame : subAfter urlScheme urlUserinfo (REDACTED_PARAMETER_VALUE ++ "@").toList v = v :=
      subAfter_of_forall_firstMatch fun t ht =>
        (firstMatch_length scans_url.plain_keep scans_url.plain_body _ 0 t).trans
          (scans_url.firstMatch_of_count hcolon' hbody hcount ht)
    rw [hsame] at h
    exact ⟨hcommand.1 h, hurl.1 hsame⟩
  · rintro ⟨hdelimited, huserinfo⟩
    rw [hurl.2 huserinfo]
    exact hcommand.2 hdelimited

/-! ## Trees -/

mutual

/-- Two trees differ only in values under credential-shaped keys. -/
inductive Similar : Json → Json → Prop
  | refl (j : Json) : Similar j j
  | arr {l l' : List Json} : SimilarItems l l' → Similar (.arr l) (.arr l')
  | obj {l l' : List (String × Json)} : SimilarEntries l l' → Similar (.obj l) (.obj l')

/-- The items of two lists do. -/
inductive SimilarItems : List Json → List Json → Prop
  | nil : SimilarItems [] []
  | cons {j j' : Json} {l l' : List Json} : Similar j j' → SimilarItems l l' →
    SimilarItems (j :: l) (j' :: l')

/-- The entries of two objects do. -/
inductive SimilarEntries : List (String × Json) → List (String × Json) → Prop
  | nil : SimilarEntries [] []
  | hidden {k : String} {j j' : Json} {l l' : List (String × Json)} : isSensitiveKey k = true →
    SimilarEntries l l' → SimilarEntries ((k, j) :: l) ((k, j') :: l')
  | visible {k : String} {j j' : Json} {l l' : List (String × Json)} : Similar j j' →
    SimilarEntries l l' → SimilarEntries ((k, j) :: l) ((k, j') :: l')

end

mutual

/-- **Redaction is a function of what is not under a credential-shaped key.** -/
theorem redactValue_of_similar {j j' : Json} (h : Similar j j') :
    redactValue j = redactValue j' := by
  cases h with
  | refl => rfl
  | arr h =>
    unfold redactValue
    rw [redactItems_of_similar h]
  | obj h =>
    unfold redactValue
    rw [redactEntries_of_similar h]

theorem redactItems_of_similar {l l' : List Json} (h : SimilarItems l l') :
    redactItems l = redactItems l' := by
  cases h with
  | nil => rfl
  | cons hj hl =>
    unfold redactItems
    rw [redactValue_of_similar hj, redactItems_of_similar hl]

theorem redactEntries_of_similar {l l' : List (String × Json)} (h : SimilarEntries l l') :
    redactEntries l = redactEntries l' := by
  cases h with
  | nil => rfl
  | hidden hk hl =>
    unfold redactEntries
    rw [if_pos hk, if_pos hk, redactEntries_of_similar hl]
  | visible hj hl =>
    unfold redactEntries
    rw [redactValue_of_similar hj, redactEntries_of_similar hl]

end

mutual

/-- A tree is kept but for its texts and what is under credential-shaped keys: the keys, the lengths
of lists and all other values are the same. -/
inductive Preserved : Json → Json → Prop
  | null : Preserved .null .null
  | bool (b : Bool) : Preserved (.bool b) (.bool b)
  | int (n : ℤ) : Preserved (.int n) (.int n)
  | float (x : PyFloat) : Preserved (.float x) (.float x)
  | str (s s' : String) : Preserved (.str s) (.str s')
  | arr {l l' : List Json} : PreservedItems l l' → Preserved (.arr l) (.arr l')
  | obj {l l' : List (String × Json)} : PreservedEntries l l' → Preserved (.obj l) (.obj l')

/-- The items of a list are kept. -/
inductive PreservedItems : List Json → List Json → Prop
  | nil : PreservedItems [] []
  | cons {j j' : Json} {l l' : List Json} : Preserved j j' → PreservedItems l l' →
    PreservedItems (j :: l) (j' :: l')

/-- The entries of an object are kept; the marker stands under a credential-shaped key. -/
inductive PreservedEntries : List (String × Json) → List (String × Json) → Prop
  | nil : PreservedEntries [] []
  | hidden {k : String} {j : Json} {l l' : List (String × Json)} : isSensitiveKey k = true →
    PreservedEntries l l' →
    PreservedEntries ((k, j) :: l) ((k, .str REDACTED_PARAMETER_VALUE) :: l')
  | visible {k : String} {j j' : Json} {l l' : List (String × Json)} : Preserved j j' →
    PreservedEntries l l' → PreservedEntries ((k, j) :: l) ((k, j') :: l')

end

mutual

/-- **Redaction keeps a tree but for its texts.** -/
theorem preserved_redactValue (j : Json) : Preserved j (redactValue j) := by
  cases j with
  | null => exact .null
  | bool b => exact .bool b
  | int n => exact .int n
  | float x => exact .float x
  | str s => exact .str s _
  | arr items => exact .arr (preserved_redactItems items)
  | obj entries => exact .obj (preserved_redactEntries entries)

theorem preserved_redactItems (l : List Json) : PreservedItems l (redactItems l) := by
  cases l with
  | nil => exact .nil
  | cons j l => exact .cons (preserved_redactValue j) (preserved_redactItems l)

theorem preserved_redactEntries (l : List (String × Json)) :
    PreservedEntries l (redactEntries l) := by
  cases l with
  | nil => exact .nil
  | cons e l =>
    obtain ⟨k, j⟩ := e
    unfold redactEntries
    split_ifs with hk
    · exact .hidden hk (preserved_redactEntries l)
    · exact .visible (preserved_redactValue j) (preserved_redactEntries l)

end

mutual

/-- The texts of a tree that are not under credential-shaped keys are stable. -/
def StableTree : Json → Prop
  | .obj entries => StableEntries entries
  | .arr items => StableItems items
  | .str s => StableText s
  | .null | .bool _ | .int _ | .float _ => True

/-- The texts of the items are stable. -/
def StableItems : List Json → Prop
  | [] => True
  | j :: l => StableTree j ∧ StableItems l

/-- The texts of the entries are stable. -/
def StableEntries : List (String × Json) → Prop
  | [] => True
  | (k, j) :: l => (isSensitiveKey k = false → StableTree j) ∧ StableEntries l

end

mutual

theorem redactValue_idem_iff (j : Json) :
    redactValue (redactValue j) = redactValue j ↔ StableTree j := by
  cases j with
  | null => simp [redactValue, StableTree]
  | bool b => simp [redactValue, StableTree]
  | int n => simp [redactValue, StableTree]
  | float x => simp [redactValue, StableTree]
  | str s =>
    simp only [redactValue, StableTree, Json.str.injEq]
    exact redactText_idem_iff s
  | arr items =>
    simp only [redactValue, StableTree, Json.arr.injEq]
    exact redactItems_idem_iff items
  | obj entries =>
    simp only [redactValue, StableTree, Json.obj.injEq]
    exact redactEntries_idem_iff entries

theorem redactItems_idem_iff (l : List Json) :
    redactItems (redactItems l) = redactItems l ↔ StableItems l := by
  cases l with
  | nil => simp [redactItems, StableItems]
  | cons j l =>
    simp only [redactItems, StableItems, List.cons.injEq]
    rw [redactValue_idem_iff j, redactItems_idem_iff l]

theorem redactEntries_idem_iff (l : List (String × Json)) :
    redactEntries (redactEntries l) = redactEntries l ↔ StableEntries l := by
  cases l with
  | nil => simp [redactEntries, StableEntries]
  | cons e l =>
    obtain ⟨k, j⟩ := e
    simp only [redactEntries, StableEntries, List.cons.injEq, Prod.mk.injEq, true_and]
    rw [redactEntries_idem_iff l]
    refine and_congr_left fun _ => ?_
    split_ifs with hk
    · simp [hk]
    · simp [hk, redactValue_idem_iff j]

end

end Aidars
