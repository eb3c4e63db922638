import Ert.Docs.Labels
import Mathlib.Data.List.Chain

/-! The anchors `_slug` makes for the `Definitions` sections: whatever the text,
the anchor is groups of `[a-z0-9]` joined by single hyphens, and `_slug` leaves
exactly those anchors as they are. -/
namespace Ert.Docs

/-- A well-formed anchor: non-empty, only `[a-z0-9-]`, no hyphen at either end
and no two in a row. -/
def IsSlug (s : String) : Prop :=
  s.data ≠ [] ∧ (∀ c ∈ s.data, isSlugChar c = true ∨ c = '-') ∧
    s.data.head? ≠ some '-' ∧ s.data.getLast? ≠ some '-' ∧ ¬['-', '-'] <:+: s.data

instance : DecidablePred IsSlug := fun _ => inferInstanceAs (Decidable (_ ∧ _))

example : IsSlug "section" ∧ ¬IsSlug "def--a" ∧ ¬IsSlug "-a" := by decide

theorem chain_ne_iff_not_isInfix {x : Char} {l : List Char} :
    l.Chain' (fun a b => ¬(a = x ∧ b = x)) ↔ ¬[x, x] <:+: l := by
  induction l with
  | nil => simp
  | cons a l ih =>
      rw [List.chain'_cons', ih, List.infix_cons_iff, not_or]
      refine and_congr_left fun _ => ?_
      cases l with
      | nil => simp
      | cons b l =>
          simp only [List.head?_cons, Option.mem_def, Option.some.injEq, forall_eq',
            List.cons_prefix_cons, List.nil_prefix, and_true]
          exact not_congr (and_congr eq_comm eq_comm)

section subRuns

variable {p : Char → Bool} {r : Char}

/-- Every character `subRuns` emits is the replacement or a kept character. -/
theorem mem_subRuns {c : Char} {inRun : Bool} {s : List Char} (h : c ∈ subRuns p r inRun s) :
    c = r ∨ (c ∈ s ∧ p c = false) := by
  induction s generalizing inRun with
  | nil => simp [subRuns] at h
  | cons d ds ih =>
      unfold subRuns at h
      split_ifs at h with hd
      · exact (ih h).imp_right fun hc => ⟨.tail _ hc.1, hc.2⟩
      · rcases List.mem_cons.mp h with rfl | h
        · exact .inl rfl
        · exact (ih h).imp_right fun hc => ⟨.tail _ hc.1, hc.2⟩
      · rcases List.mem_cons.mp h with rfl | h
        · exact .inr ⟨.head _, by simpa using hd⟩
        · exact (ih h).imp_right fun hc => ⟨.tail _ hc.1, hc.2⟩

/-- When the replacement itself matches, no two replacements are adjacent, and
a run in progress does not start with one. -/
theorem chain_subRuns (hr : p r = true) (inRun : Bool) (s : List Char) :
    (subRuns p r inRun s).Chain' (fun a b => ¬(a = r ∧ b = r)) ∧
      (inRun = true → (subRuns p r inRun s).head? ≠ some r) := by
  induction s generalizing inRun with
  | nil => simp [subRuns]
  | cons d ds ih =>
      obtain ⟨hChain, hHead⟩ := ih true
      unfold subRuns
      split_ifs with hd hRun
      · exact ⟨hChain, fun _ => hHead rfl⟩
      · exact ⟨List.chain'_cons'.mpr ⟨fun y hy hry => hHead rfl (hry.2 ▸ hy), hChain⟩, by simp [hRun]⟩
      · have hdr : d ≠ r := fun h => hd (h ▸ hr)
        exact ⟨List.chain'_cons'.mpr ⟨fun _ _ hdy => hdr hdy.1, (ih false).1⟩, by simp [hdr]⟩

/-- A text whose matching characters are single replacements comes back unchanged. -/
theorem subRuns_eq_self {inRun : Bool} {s : List Char} (hp : ∀ c ∈ s, p c = true → c = r)
    (hChain : s.Chain' fun a b => ¬(a = r ∧ b = r)) (hHead : inRun = true → s.head? ≠ some r) :
    subRuns p r inRun s = s := by
  induction s generalizing inRun with
  | nil => rfl
  | cons d ds ih =>
      obtain ⟨hNext, hTail⟩ := List.chain'_cons'.mp hChain
      have hp' : ∀ c ∈ ds, p c = true → c = r := fun c hc => hp c (.tail _ hc)
      unfold subRuns
      split_ifs with hd hRun
      · exact absurd (by simp [hp d (.head _) hd]) (hHead hRun)
      · rw [ih hp' hTail fun _ h => hNext r h ⟨hp d (.head _) hd, rfl⟩, hp d (.head _) hd]
      · rw [ih hp' hTail fun h => absurd h (by decide)]

end subRuns

theorem toLower_of_slugChar {c : Char} (h : isSlugChar c = true ∨ c = '-') : c.toLower = c := by
  have hRange : ¬(c.toNat ≥ 65 ∧ c.toNat ≤ 90) := by
    rcases h with h | rfl
    · simp only [isSlugChar, Bool.or_eq_true, decide_eq_true_eq, Char.le_def, UInt32.le_def,
        BitVec.le_def] at h
      have : c.toNat = c.val.toBitVec.toNat := rfl
      rcases h with ⟨h1, h2⟩ | ⟨h1, h2⟩ <;>
        simp only [show 'a'.val.toBitVec.toNat = 97 from rfl, show 'z'.val.toBitVec.toNat = 122 from rfl,
          show '0'.val.toBitVec.toNat = 48 from rfl, show '9'.val.toBitVec.toNat = 57 from rfl] at h1 h2 <;>
        omega
    · decide
  simp [Char.toLower, hRange]

theorem lowerChar_of_slugChar {c : Char} (h : isSlugChar c = true ∨ c = '-') : lowerChar c = [c] := by
  have hDot : c ≠ '\u0130' := by rintro rfl; revert h; decide
  have hKelvin : c ≠ '\u212A' := by rintro rfl; revert h; decide
  simp [lowerChar, hDot, hKelvin, toLower_of_slugChar h]

/-- Every anchor `_slug` makes is well formed. -/
theorem isSlug_slug (text : String) : IsSlug (slug text) := by
  simp only [slug]
  set s1 := subRuns (fun c => !isSlugChar c) '-' false (text.data.flatMap lowerChar)
  set s2 := subRuns (· = '-') '-' false s1
  set s3 := (s2.dropWhile (· = '-')).rdropWhile (· = '-')
  split_ifs with hEmpty
  · decide
  have hNe : s3 ≠ [] := by simpa using hEmpty
  have hPrefix : s3 <+: s2.dropWhile (· = '-') := List.rdropWhile_prefix _ _
  have hInfix : s3 <:+: s2 := hPrefix.isInfix.trans (List.dropWhile_suffix _).isInfix
  have hChars1 : ∀ c ∈ s1, isSlugChar c = true ∨ c = '-' := fun c hc =>
    (mem_subRuns hc).elim .inr fun h => .inl (by simpa using h.2)
  have hChars2 : ∀ c ∈ s2, isSlugChar c = true ∨ c = '-' := fun c hc =>
    (mem_subRuns hc).elim .inr fun h => hChars1 c h.1
  have hChain : s3.Chain' fun a b => ¬(a = '-' ∧ b = '-') :=
    List.Chain'.infix (chain_subRuns rfl false s1).1 hInfix
  refine ⟨hNe, fun c hc => hChars2 c (hInfix.subset hc), ?_, ?_, chain_ne_iff_not_isInfix.mp hChain⟩
  · obtain ⟨a, rest, hs3⟩ := List.exists_cons_of_ne_nil hNe
    obtain ⟨t, ht⟩ := hPrefix
    have hFirst := List.head?_dropWhile_not (· = '-') s2
    rw [← ht, hs3] at hFirst
    simpa [hs3] using hFirst
  · rw [List.getLast?_eq_getLast s3 hNe]
    exact fun h => by simpa [Option.some.inj h] using List.rdropWhile_last_not _ _ hNe

/-- `_slug` leaves a well-formed anchor as it is. -/
theorem slug_of_isSlug {s : String} (h : IsSlug s) : slug s = s := by
  obtain ⟨hNe, hChars, hHead, hLast, hNoDouble⟩ := h
  have hChain := chain_ne_iff_not_isInfix.mpr hNoDouble
  have hLower : s.data.flatMap lowerChar = s.data :=
    (List.flatMap_congr fun c hc => lowerChar_of_slugChar (hChars c hc)).trans (List.flatMap_singleton' _)
  have hSub1 : subRuns (fun c => !isSlugChar c) '-' false s.data = s.data :=
    subRuns_eq_self (fun c hc hp => (hChars c hc).resolve_left (by simpa using hp)) hChain
      fun h => absurd h (by decide)
  have hSub2 : subRuns (· = '-') '-' false s.data = s.data :=
    subRuns_eq_self (fun c _ hp => by simpa using hp) hChain fun h => absurd h (by decide)
  obtain ⟨a, rest, hs⟩ := List.exists_cons_of_ne_nil hNe
  have hDrop : s.data.dropWhile (· = '-') = s.data := by
    rw [hs] at hHead ⊢
    simpa using hHead
  have hRDrop : s.data.rdropWhile (· = '-') = s.data :=
    List.rdropWhile_eq_self_iff.mpr fun hl h => hLast (by simpa [List.getLast?_eq_getLast _ hl] using h)
  simp only [slug, hLower, hSub1, hSub2, hDrop, hRDrop, List.isEmpty_eq_true, hNe, if_false]

/-- Whatever the text, `_slug` makes a well-formed anchor, and given that anchor
again it returns it unchanged. -/
theorem slug_wellFormed (text : String) : IsSlug (slug text) ∧ slug (slug text) = slug text :=
  ⟨isSlug_slug text, slug_of_isSlug (isSlug_slug text)⟩

/-- The anchors `_slug` can make are exactly the well-formed ones. -/
theorem slug_range (s : String) : (∃ text, slug text = s) ↔ IsSlug s :=
  ⟨fun ⟨text, h⟩ => h ▸ isSlug_slug text, fun h => ⟨s, slug_of_isSlug h⟩⟩

end Ert.Docs
