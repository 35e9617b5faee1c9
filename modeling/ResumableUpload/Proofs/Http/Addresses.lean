import Mathlib.Data.List.TakeWhile
import ResumableUpload.Http.Url

/-!
# Addresses below one base

Whether a text is an address is decided by its scheme and by its authority, which end before the
path begins (`Url.front?`). So of the addresses below one base either all read or none does, however
their paths go on (`Url.isSome_read?_below`).
-/

namespace ResumableUpload.Url

variable {front rest : List Char} {p : Char → Bool} {c : Char}

/-! ## Up to a character -/

/-- What is taken from the front ends with the first character that is not to be taken. -/
theorem takeWhile_append_cons (hc : p c = false) :
    (front ++ c :: rest).takeWhile p = front.takeWhile p := by
  induction front with
  | nil =>
    rw [List.nil_append, List.takeWhile_cons_of_neg (by simp [hc])]
    rfl
  | cons d front ih =>
    by_cases hd : p d = true
    · rw [List.cons_append, List.takeWhile_cons_of_pos hd, List.takeWhile_cons_of_pos hd, ih]
    · rw [List.cons_append, List.takeWhile_cons_of_neg hd, List.takeWhile_cons_of_neg hd]

/-- What is dropped from the front ends with the first character that is not to be dropped. -/
theorem dropWhile_append_cons (hc : p c = false) :
    (front ++ c :: rest).dropWhile p = front.dropWhile p ++ c :: rest := by
  induction front with
  | nil =>
    rw [List.nil_append, List.dropWhile_cons_of_neg (by simp [hc])]
    rfl
  | cons d front ih =>
    by_cases hd : p d = true
    · rw [List.cons_append, List.dropWhile_cons_of_pos hd, List.dropWhile_cons_of_pos hd, ih]
    · rw [List.cons_append, List.dropWhile_cons_of_neg hd, List.dropWhile_cons_of_neg hd]
      rfl

/-! ## The front of an address -/

/-- The scheme of a text, and what stands between it and the path. -/
def front? (text : List Char) : Option (String × List Char) :=
  (scheme? text).map fun (scheme, rest) =>
    (scheme, (cutAt endsAuthority (rest.dropWhile isSlash)).1)

/-- Of two texts with the same front both are addresses or neither is. -/
theorem isSome_read?_congr {text text' : String}
    (h : front? (strip text.toList) = front? (strip text'.toList)) :
    (read? text).isSome = (read? text').isSome := by
  unfold front? at h
  unfold read?
  cases hscheme : scheme? (strip text.toList) with
  | none =>
    rw [hscheme, Option.map_none, eq_comm, Option.map_eq_none_iff] at h
    rw [h]
  | some found =>
    obtain ⟨scheme, rest⟩ := found
    rw [hscheme, Option.map_some, eq_comm, Option.map_eq_some_iff] at h
    obtain ⟨⟨scheme', rest'⟩, hscheme', heq⟩ := h
    obtain ⟨rfl, hauthority⟩ := Prod.mk.inj heq
    rcases hcut : cutAt endsAuthority (rest.dropWhile isSlash) with ⟨authority, path⟩
    rcases hcut' : cutAt endsAuthority (rest'.dropWhile isSlash) with ⟨authority', path'⟩
    rw [hcut, hcut'] at hauthority
    cases hauthority
    rw [hscheme']
    -- What is read of the path is not looked at.
    simp only [Option.bind_eq_bind, Option.bind_some, hcut, hcut']
    split
    · simp [Option.isSome_bind]
    · simp [Option.isSome_bind]
    · simp

/-- A scheme ends with the first colon. -/
theorem cutAt_colon {scheme : List Char} (h : ':' ∉ scheme) :
    cutAt (· == ':') (scheme ++ ':' :: rest) = (scheme, ':' :: rest) := by
  have hall : ∀ d ∈ scheme, (!(d == ':')) = true := by
    intro d hd
    have hne : d ≠ ':' := fun heq => h (heq ▸ hd)
    simp [hne]
  rw [cutAt, takeWhile_append_cons rfl, dropWhile_append_cons rfl,
    List.takeWhile_eq_self_iff.2 hall, List.dropWhile_eq_nil_iff.2 hall, List.nil_append]

/-- A text with a slash before its first colon has no scheme. -/
theorem scheme?_of_slash (hcolon : ':' ∉ front ++ [c, '/']) :
    scheme? (front ++ c :: '/' :: rest) = none := by
  have hall : ∀ d ∈ front ++ [c, '/'], (!(d == ':')) = true := by
    intro d hd
    have hne : d ≠ ':' := fun heq => hcolon (heq ▸ hd)
    simp [hne]
  unfold scheme?
  split
  · rename_i first more _ hcut
    have htaken : first :: more = (front ++ [c, '/']) ++ rest.takeWhile fun d => !(d == ':') := by
      rw [← List.takeWhile_append_of_pos hall, List.append_assoc]
      exact (congrArg Prod.fst hcut).symm
    have hslash : '/' ∈ more := by
      cases front with
      | nil =>
        rw [(List.cons.inj htaken).2]
        exact List.mem_cons_self
      | cons d front =>
        rw [(List.cons.inj htaken).2]
        simp
    rw [if_neg]
    rintro ⟨-, hscheme⟩
    exact absurd (List.all_eq_true.1 hscheme _ hslash) (by decide)
  · rfl

/-- The front of an address ends before the path, if something stands before its first slash. -/
theorem front?_append (hcolon : c ≠ ':') (hslash : isSlash c = false) (rest' : List Char) :
    front? (front ++ c :: '/' :: rest) = front? (front ++ c :: '/' :: rest') := by
  by_cases hmem : ':' ∈ front
  · obtain ⟨scheme, more, rfl, hscheme⟩ := List.eq_append_cons_of_mem hmem
    have hauthority : ∀ rest, (cutAt endsAuthority
        ((more ++ c :: '/' :: rest).dropWhile isSlash)).1 =
          (more.dropWhile isSlash ++ [c]).takeWhile fun d => !endsAuthority d := by
      intro rest
      rw [dropWhile_append_cons hslash, cutAt, List.append_cons, takeWhile_append_cons rfl]
    simp only [List.append_assoc, List.cons_append, front?, scheme?, cutAt_colon hscheme]
    cases scheme with
    | nil => rfl
    | cons first scheme =>
      simp only
      split
      · simp only [Option.map_some, hauthority]
      · rfl
  · have hnone : ':' ∉ front ++ [c, '/'] := by
      simp [hmem, hcolon.symm]
    rw [front?, front?, scheme?_of_slash hnone, scheme?_of_slash hnone]

/-- Stripping does not take away what stands before a slash that follows a visible character. -/
theorem strip_append (front rest : List Char) (hc : ' ' < c) :
    ∃ rest', strip (front ++ c :: '/' :: rest) =
      (front.dropWhile (· ≤ ' ')).filter (fun d => d != '\t' && d != '\n' && d != '\r') ++
        c :: '/' :: rest' := by
  have hvisible : ∀ d, ¬ ' ' < d → d ≠ c := fun d hd heq => hd (heq ▸ hc)
  have hkept : (c != '\t' && c != '\n' && c != '\r') = true := by
    simp [(hvisible '\t' (by decide)).symm, (hvisible '\n' (by decide)).symm,
      (hvisible '\r' (by decide)).symm]
  have hblank : decide (c ≤ ' ') = false := by
    rw [decide_eq_false_iff_not, Char.not_le]
    exact hc
  have hreverse : (front.dropWhile (· ≤ ' ') ++ c :: '/' :: rest).reverse =
      rest.reverse ++ '/' :: c :: (front.dropWhile (· ≤ ' ')).reverse := by
    simp
  refine ⟨((rest.reverse.dropWhile (· ≤ ' ')).reverse).filter
    fun d => d != '\t' && d != '\n' && d != '\r', ?_⟩
  rw [strip, dropWhile_append_cons hblank, hreverse, dropWhile_append_cons (by decide)]
  simp [hkept]

/-- The addresses below one base all read, or none of them does. -/
theorem isSome_read?_below (base text text' : String) :
    (read? (base ++ "/files/" ++ text)).isSome = (read? (base ++ "/files/" ++ text')).isSome := by
  have hstem : ∀ text, (base ++ "/files/" ++ text).toList =
      (base ++ "/file").toList ++ 's' :: '/' :: text.toList := by
    intro text
    simp
  have hs : ' ' < 's' := by decide
  obtain ⟨rest, hrest⟩ := strip_append (base ++ "/file").toList text.toList hs
  obtain ⟨rest', hrest'⟩ := strip_append (base ++ "/file").toList text'.toList hs
  apply isSome_read?_congr
  rw [hstem, hstem, hrest, hrest']
  exact front?_append (by decide) (by decide) rest'

end ResumableUpload.Url
