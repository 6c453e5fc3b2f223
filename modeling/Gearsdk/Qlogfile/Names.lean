import Gearsdk.Qlogfile

/-! The names of the log files, numbered in the order in which a session goes
through them. -/
namespace Gearsdk
open Std Qstring

namespace Qstring

theorem unsigned_injective (same : unsigned n = unsigned m) : n = m := by
  have read := Strtol.accumulate_unsigned n
  rw [same, Strtol.accumulate_unsigned] at read
  exact (Prod.mk.inj read).1.symm

theorem not_mem_unsigned (other : isdigit byte = false) (n : Nat) : byte ∉ unsigned n := by
  intro member
  rw [unsigned_digits n byte member] at other
  contradiction

/-- What stands before the first separator is determined, and so is what follows. -/
theorem append_cons_inj {a b rest rest' : Qstring} (left : c ∉ a) (right : c ∉ b)
    (same : a ++ c :: rest = b ++ c :: rest') :
    a = b ∧ rest = rest' := by
  induction a generalizing b with
  | nil =>
    cases b with
    | nil => exact ⟨rfl, (List.cons.inj same).2⟩
    | cons x b =>
      obtain ⟨rfl, _⟩ := List.cons.inj same
      exact absurd List.mem_cons_self right
  | cons x a ih =>
    cases b with
    | nil =>
      obtain ⟨rfl, _⟩ := List.cons.inj same
      exact absurd List.mem_cons_self left
    | cons y b =>
      obtain ⟨rfl, tails⟩ := List.cons.inj same
      simp only [List.mem_cons, not_or] at left right
      obtain ⟨rfl, rests⟩ := ih left.2 right.2 tails
      exact ⟨rfl, rests⟩

end Qstring

namespace Qlogfile

/-- The number of the version that comes next. -/
def next (q : Qlogfile) : Nat := q.nextMajorVersion * minorVersionResetAt + q.nextMinorCounter

def tmpPath (cfg : Config) (n : Nat) : Qstring :=
  versionPath cfg (n / minorVersionResetAt) (n % minorVersionResetAt) (literal ".tmp")

def logPath (cfg : Config) (n : Nat) : Qstring :=
  versionPath cfg (n / minorVersionResetAt) (n % minorVersionResetAt) (literal ".log")

theorem extension_bytes :
    literal ".tmp" = [46, 116, 109, 112] ∧ literal ".log" = [46, 108, 111, 103] := by
  decide +kernel

/-- Before either extension, the same text stands for the same version only. -/
theorem versionPath_inj {extension extension' : Qstring}
    (same : versionPath cfg major minor (46 :: extension) =
    versionPath cfg major' minor' (46 :: extension')) :
    major = major' ∧ minor = minor' ∧ extension = extension' := by
  have tails := (List.cons.inj (List.append_cancel_left same)).2
  obtain ⟨majors, tails⟩ :=
    append_cons_inj (not_mem_unsigned rfl major) (not_mem_unsigned rfl major') tails
  obtain ⟨minors, extensions⟩ :=
    append_cons_inj (not_mem_unsigned rfl minor) (not_mem_unsigned rfl minor') tails
  exact ⟨unsigned_injective majors, unsigned_injective minors, extensions⟩

theorem version_inj (majors : n / minorVersionResetAt = m / minorVersionResetAt)
    (minors : n % minorVersionResetAt = m % minorVersionResetAt) : n = m := by
  simp only [minorVersionResetAt] at majors minors
  omega

theorem tmpPath_inj (same : tmpPath cfg n = tmpPath cfg m) : n = m := by
  simp only [tmpPath, extension_bytes.1] at same
  obtain ⟨majors, minors, _⟩ := versionPath_inj same
  exact version_inj majors minors

theorem logPath_inj (same : logPath cfg n = logPath cfg m) : n = m := by
  simp only [logPath, extension_bytes.2] at same
  obtain ⟨majors, minors, _⟩ := versionPath_inj same
  exact version_inj majors minors

theorem tmpPath_ne_logPath (cfg : Config) (n m : Nat) : tmpPath cfg n ≠ logPath cfg m := by
  intro same
  simp only [tmpPath, logPath, extension_bytes.1, extension_bytes.2] at same
  exact absurd (versionPath_inj same).2.2 (by decide)

theorem tmpPath_next {q : Qlogfile} (bounded : q.nextMinorCounter < minorVersionResetAt) :
    versionPath cfg q.nextMajorVersion q.nextMinorCounter (literal ".tmp") =
      tmpPath cfg q.next := by
  simp only [minorVersionResetAt] at bounded
  have major : q.next / minorVersionResetAt = q.nextMajorVersion := by
    simp only [next, minorVersionResetAt]
    omega
  have minor : q.next % minorVersionResetAt = q.nextMinorCounter := by
    simp only [next, minorVersionResetAt]
    omega
  rw [tmpPath, major, minor]

/-- A version's path without its extension. -/
def stem (cfg : Config) (n : Nat) : Qstring :=
  cString cfg.logfilePath ++ 45 :: (unsigned (n / minorVersionResetAt) ++
    45 :: unsigned (n % minorVersionResetAt))

theorem tmpPath_stem (cfg : Config) (n : Nat) : tmpPath cfg n = stem cfg n ++ literal ".tmp" := by
  simp only [tmpPath, versionPath, stem, List.append_assoc, List.cons_append]

theorem logPath_stem (cfg : Config) (n : Nat) : logPath cfg n = stem cfg n ++ literal ".log" := by
  simp only [logPath, versionPath, stem, List.append_assoc, List.cons_append]

theorem stem_clean (cfg : Config) (n : Nat) : Clean (stem cfg n) := by
  intro byte member
  simp only [stem, List.mem_append, List.mem_cons] at member
  rcases member with inside | rfl | inside | rfl | inside
  · exact cString_nul_free _ byte inside
  · decide
  · exact clean_of_digits (unsigned_digits _) byte inside
  · decide
  · exact clean_of_digits (unsigned_digits _) byte inside

theorem replace_tmpPath (cfg : Config) (n : Nat) :
    (tmpPath cfg n).replace (literal ".tmp") (literal ".log") = logPath cfg n := by
  have free : ¬ literal ".tmp" <:+: cString cfg.logfilePath := by
    intro within
    have inside : cString cfg.logfilePath <:+: cfg.logfilePath :=
      List.IsPrefix.isInfix <| cString_prefix _
    exact cfg.single (within.trans inside)
  have clear : (46 : UInt8) ∉ 45 :: (unsigned (n / minorVersionResetAt) ++
      45 :: unsigned (n % minorVersionResetAt)) := by
    have dotless : ∀ k, 46 ∉ unsigned k := not_mem_unsigned rfl
    simp only [List.mem_cons, List.mem_append, dotless, or_false]
    decide
  have found : find (literal ".tmp") (stem cfg n ++ literal ".tmp") = some (stem cfg n).length := by
    rw [extension_bytes.1] at free ⊢
    exact find_at_end (by decide) clear free
  rw [tmpPath_stem, logPath_stem]
  refine replace_at_end (stem_clean cfg n) ?_ ?_ found
  · rw [extension_bytes.1]
    exact List.cons_ne_nil _ _
  · rw [extension_bytes.1, extension_bytes.2]
    rfl

end Qlogfile
end Gearsdk
