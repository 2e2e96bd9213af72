import StaticSite.Proofs.Files.Steps
/-!
# Walks

A walk along the segments of a path is made of single steps. Where the steps lead to
does not depend on what the path is wanted for; only the end of the walk does.
-/

namespace StaticSite

def WorkingDirectory.up : WorkingDirectory → WorkingDirectory
  | .standing location => .standing location.dropLast
  | .removed 0 above => .standing above
  | .removed (levels + 1) above => .removed levels above

def WorkingDirectory.place : WorkingDirectory → Place
  | .standing location => .entry location .directory
  | .removed _ _ => .removed

namespace Segment

/-- Whether a segment leads from a directory to what it holds under that name. -/
def isStepDown (segment : Segment) : Prop := segment.isIdle = false ∧ segment ≠ Segment.up

theorem isStepDown_ne_nil {segment : Segment} (h : segment.isStepDown) : segment ≠ [] := by
  rintro rfl
  cases h.1

end Segment

@[simp] theorem Purpose.refuses_nil (purpose : Purpose) : purpose.refuses [] = false := by
  simp [Purpose.refuses]

theorem Purpose.refuses_of_ne_writing (purpose : Purpose) (h : purpose ≠ .writing)
    (rest : List Segment) : purpose.refuses rest = false := by
  simp [Purpose.refuses, h]

theorem Purpose.refuses_of_mem {rest : List Segment} {s : Segment} (hs : s ∈ rest)
    (hne : s ≠ []) (purpose : Purpose) : purpose.refuses rest = false := by
  have hall : rest.all (· == []) = false := by
    rw [List.all_eq_false]
    exact ⟨s, hs, by simpa using hne⟩
  rw [Purpose.refuses, hall, Bool.and_false]

namespace Files

def start (fs : Files) (isAbsolute : Bool) : WorkingDirectory :=
  if isAbsolute then .standing [] else fs.workingDirectory

def linkStart (current : Location) (target : Path) : WorkingDirectory :=
  .standing (if target.isAbsolute then [] else current)

def walkRemovedFrom (fs : Files) (purpose : Purpose) (links : Nat) (above : Location) :
    Nat → List Segment → Except FileError Place
  | _, [] => .ok .removed
  | levels, segment :: rest =>
    if Segment.isIdle segment then walkRemovedFrom fs purpose links above levels rest
    else if segment = Segment.up then
      match levels with
      | 0 => walkSegments fs purpose (followLink fs purpose links) above rest
      | levels + 1 => walkRemovedFrom fs purpose links above levels rest
    else if purpose.refuses rest then .error .isDirectory
    else .error .missing

/-- Walks from a working directory along segments. The number says how many links may
still be followed. -/
def walkFrom (fs : Files) (purpose : Purpose) (links : Nat) (s : WorkingDirectory)
    (segments : List Segment) : Except FileError Place :=
  match s with
  | .standing location => walkSegments fs purpose (followLink fs purpose links) location segments
  | .removed levels above => walkRemovedFrom fs purpose links above levels segments

variable {fs : Files} {purpose : Purpose}

/-!
## One step of a walk
-/

theorem walkFrom_nil (links : Nat) (s : WorkingDirectory) :
    fs.walkFrom purpose links s [] = .ok s.place := by
  cases s with
  | standing location => rw [walkFrom, walkSegments, WorkingDirectory.place]
  | removed levels above => simp only [walkFrom, walkRemovedFrom, WorkingDirectory.place]

theorem walkFrom_idle {segment : Segment} (h : segment.isIdle = true) (links : Nat)
    (s : WorkingDirectory) (rest : List Segment) :
    fs.walkFrom purpose links s (segment :: rest) = fs.walkFrom purpose links s rest := by
  cases s with
  | standing location => simp only [walkFrom, walkSegments, if_pos h]
  | removed levels above => simp only [walkFrom, walkRemovedFrom, if_pos h]

theorem walkFrom_up (links : Nat) (s : WorkingDirectory) (rest : List Segment) :
    fs.walkFrom purpose links s (Segment.up :: rest) =
      fs.walkFrom purpose links s.up rest := by
  have hidle : ¬ Segment.isIdle Segment.up = true := by decide
  cases s with
  | standing location =>
      simp only [walkFrom, walkSegments, if_neg hidle, if_true, WorkingDirectory.up]
  | removed levels above =>
      cases levels with
      | zero => simp only [walkFrom, walkRemovedFrom, if_neg hidle, if_true, WorkingDirectory.up]
      | succ levels =>
          simp only [walkFrom, walkRemovedFrom, if_neg hidle, if_true, WorkingDirectory.up]

theorem walkFrom_removed {segment : Segment} (h : segment.isStepDown) (links levels : Nat)
    (above : Location) (rest : List Segment) :
    fs.walkFrom purpose links (.removed levels above) (segment :: rest) =
      .error (if purpose.refuses rest then .isDirectory else .missing) := by
  have hidle : ¬ segment.isIdle = true := by simp [h.1]
  simp only [walkFrom, walkRemovedFrom, if_neg hidle, if_neg h.2]
  split <;> rfl

theorem walkFrom_standing {segment : Segment} (h : segment.isStepDown) (links : Nat)
    (location : Location) (rest : List Segment) :
    fs.walkFrom purpose links (.standing location) (segment :: rest) =
      if purpose.refuses rest then .error .isDirectory
      else if nameLimit < segment.bytes.length then .error .nameTooLong
      else
        match fs.find? (location ++ [segment]) with
        | none =>
          if rest = [] then .ok (.free (location ++ [segment])) else .error .missing
        | some .directory =>
          fs.walkFrom purpose links (.standing (location ++ [segment])) rest
        | some (.file content) =>
          if rest = [] then .ok (.entry (location ++ [segment]) (.file content))
          else .error .notDirectory
        | some (.link target) =>
          if rest = [] ∧ purpose = .itself then
            .ok (.entry (location ++ [segment]) (.link target))
          else fs.followLink purpose links location target rest := by
  have hidle : ¬ segment.isIdle = true := by simp [h.1]
  exact (if_neg hidle).trans (if_neg h.2)

theorem followLink_succ (links : Nat) (location : Location) (target : Path)
    (rest : List Segment) :
    fs.followLink purpose (links + 1) location target rest =
      fs.walkFrom purpose links (linkStart location target) (target.segments ++ rest) := by
  rw [followLink, linkStart, walkFrom]

theorem walkFrom_down {segment : Segment} {location : Location} {rest : List Segment}
    (h : segment.isStepDown) (hlength : segment.bytes.length ≤ nameLimit)
    (hfind : fs.find? (location ++ [segment]) = some .directory)
    (hrefuses : purpose.refuses rest = false) (links : Nat) :
    fs.walkFrom purpose links (.standing location) (segment :: rest) =
      fs.walkFrom purpose links (.standing (location ++ [segment])) rest := by
  rw [walkFrom_standing h, hrefuses, if_neg Bool.false_ne_true,
    if_neg (Nat.not_lt_of_le hlength), hfind]

theorem walkFrom_link {segment : Segment} {location : Location} {target : Path}
    {rest : List Segment} (h : segment.isStepDown) (hlength : segment.bytes.length ≤ nameLimit)
    (hfind : fs.find? (location ++ [segment]) = some (.link target))
    (hrefuses : purpose.refuses rest = false) (hend : ¬ (rest = [] ∧ purpose = .itself))
    (links : Nat) :
    fs.walkFrom purpose (links + 1) (.standing location) (segment :: rest) =
      fs.walkFrom purpose links (linkStart location target) (target.segments ++ rest) := by
  rw [walkFrom_standing h, hrefuses, if_neg Bool.false_ne_true,
    if_neg (Nat.not_lt_of_le hlength), hfind]
  simp only [if_neg hend]
  rw [followLink_succ]

theorem walkFrom_standing_cases {segment : Segment} (hstep : segment.isStepDown) {links : Nat}
    {location : Location} {rest : List Segment} {place : Place}
    (h : fs.walkFrom purpose links (.standing location) (segment :: rest) = .ok place) :
    segment.bytes.length ≤ nameLimit ∧ purpose.refuses rest = false ∧
      ((fs.find? (location ++ [segment]) = none ∧ rest = [] ∧
          place = .free (location ++ [segment])) ∨
        (fs.find? (location ++ [segment]) = some .directory ∧
          fs.walkFrom purpose links (.standing (location ++ [segment])) rest = .ok place) ∨
        (∃ content, fs.find? (location ++ [segment]) = some (.file content) ∧ rest = [] ∧
          place = .entry (location ++ [segment]) (.file content)) ∨
        (∃ target, fs.find? (location ++ [segment]) = some (.link target) ∧
          ((rest = [] ∧ purpose = .itself ∧
              place = .entry (location ++ [segment]) (.link target)) ∨
            ∃ left, links = left + 1 ∧ ¬ (rest = [] ∧ purpose = .itself) ∧
              fs.walkFrom purpose left (linkStart location target) (target.segments ++ rest) =
                .ok place))) := by
  rw [walkFrom_standing hstep] at h
  split at h
  · cases h
  · next hrefuses =>
      split at h
      · cases h
      · next hlength =>
          refine ⟨Nat.le_of_not_lt hlength, by simpa using hrefuses, ?_⟩
          cases hfind : fs.find? (location ++ [segment]) with
          | none =>
              left
              rw [hfind] at h
              simp only at h
              split at h
              · next hrest => exact ⟨rfl, hrest, by cases h; rfl⟩
              · cases h
          | some entry =>
              right
              rw [hfind] at h
              cases entry with
              | directory => exact Or.inl ⟨rfl, h⟩
              | file content =>
                  right
                  left
                  simp only at h
                  split at h
                  · next hrest => exact ⟨content, rfl, hrest, by cases h; rfl⟩
                  · cases h
              | link target =>
                  right
                  right
                  refine ⟨target, rfl, ?_⟩
                  simp only at h
                  split at h
                  · next hend => exact Or.inl ⟨hend.1, hend.2, by cases h; rfl⟩
                  · next hend =>
                      cases links with
                      | zero => cases h
                      | succ left =>
                          rw [followLink_succ] at h
                          exact Or.inr ⟨left, rfl, hend, h⟩

theorem walkRemoved_eq (above : Location) (levels : Nat) (segments : List Segment) :
    fs.walkRemoved purpose above levels segments =
      fs.walkRemovedFrom purpose linkLimit above levels segments := by
  induction segments generalizing levels with
  | nil => rw [walkRemoved.eq_def, walkRemovedFrom.eq_def]
  | cons segment rest ih =>
      rw [walkRemoved.eq_def, walkRemovedFrom.eq_def]
      cases levels with
      | zero => simp only [ih, walk]
      | succ levels => simp only [ih]

theorem enter_eq (isAbsolute : Bool) (segments : List Segment) :
    fs.enter purpose isAbsolute segments =
      fs.walkFrom purpose linkLimit (fs.start isAbsolute) segments := by
  cases isAbsolute with
  | true => rfl
  | false =>
      rw [enter, start, if_neg Bool.false_ne_true, if_neg Bool.false_ne_true]
      cases fs.workingDirectory with
      | standing location => rfl
      | removed levels above => exact walkRemoved_eq above levels segments

/-- Walks are well-founded: at a link the number of links decreases, and at any other
segment their list becomes shorter. -/
theorem walk_induct (fs : Files) {motive : Nat → WorkingDirectory → List Segment → Prop}
    (nil : ∀ links s, motive links s [])
    (idle : ∀ links s segment rest, segment.isIdle = true → motive links s rest →
      motive links s (segment :: rest))
    (up : ∀ links s rest, motive links s.up rest → motive links s (Segment.up :: rest))
    (removed : ∀ links levels above segment rest, segment.isStepDown →
      motive links (.removed levels above) (segment :: rest))
    (standing : ∀ links location segment rest, segment.isStepDown →
      (fs.find? (location ++ [segment]) = some .directory →
        motive links (.standing (location ++ [segment])) rest) →
      (∀ left target, links = left + 1 →
        fs.find? (location ++ [segment]) = some (.link target) →
        motive left (linkStart location target) (target.segments ++ rest)) →
      motive links (.standing location) (segment :: rest))
    (links : Nat) (s : WorkingDirectory) (segments : List Segment) :
    motive links s segments := by
  induction links using Nat.strong_induction_on generalizing s segments with
  | _ links ihLinks =>
      induction segments generalizing s with
      | nil => exact nil links s
      | cons segment rest ih =>
          by_cases hidle : segment.isIdle = true
          · exact idle links s segment rest hidle (ih s)
          · by_cases hup : segment = Segment.up
            · subst hup
              exact up links s rest (ih s.up)
            · have hstep : segment.isStepDown := ⟨by simpa using hidle, hup⟩
              cases s with
              | standing location =>
                  refine standing links location segment rest hstep (fun _ => ih _) ?_
                  rintro left target rfl -
                  exact ihLinks left (Nat.lt_succ_self left) _ _
              | removed levels above =>
                  exact removed links levels above segment rest hstep

end Files

end StaticSite
