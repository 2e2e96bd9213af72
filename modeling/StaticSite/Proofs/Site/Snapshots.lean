import StaticSite.Proofs.Site.Comparing
import StaticSite.Proofs.Site.Urls
import StaticSite.Proofs.Text.Utf8
/-!
# Comparing documents

Directories that hold documents, each in a file of its own, can be compared. If both hold
documents with the same urls, then what is found is the documents that differ.
-/

namespace StaticSite

namespace Path

theorem parts_ofSegments_sublist {a b : List Segment} (h : a.Sublist b) :
    (ofSegments a).parts.Sublist (ofSegments b).parts := by
  induction h with
  | slnil => exact List.Sublist.refl _
  | @cons a b s h ih =>
      cases b with
      | nil =>
          rw [List.sublist_nil.mp h]
          exact List.nil_sublist _
      | cons t rest =>
          rw [ofSegments_cons_cons]
          exact (ih.cons _).trans (List.sublist_append_right s _)
  | @cons_cons a b s h ih =>
      cases b with
      | nil =>
          rw [List.sublist_nil.mp h]
      | cons t rest =>
          rw [ofSegments_cons_cons]
          cases a with
          | nil =>
              rw [ofSegments_singleton]
              exact List.sublist_append_left _ _
          | cons u more =>
              rw [ofSegments_cons_cons]
              exact (ih.cons_cons _).append_left s

theorem parts_join_sublist {p q r : Path} (hq : q.isAbsolute = false) (hr : r.isAbsolute = false)
    (h : q.parts.Sublist r.parts) : (p.join q).parts.Sublist (p.join r).parts := by
  simp only [join, hq, hr, Bool.false_eq_true, if_false]
  split
  · exact h.append_left _
  · exact (h.cons_cons _).append_left _

end Path

/-!
## Paths below a directory
-/

namespace Compare

open Files

variable {fs : Files} {root : Path} {top place : Location} {entry : Entry}
  {content found : List UInt8}

theorem isBelow_pathBelow (hroot : root.isEmpty = false) (hnamed : place.IsNamed)
    (hcheck : checkPath (pathBelow root place) = .ok ()) :
    IsBelow root (pathBelow root place) place := by
  have habs := Path.isAbsolute_ofSegments hnamed
  constructor
  · exact Path.isAbsolute_join hroot habs
  · rw [pathBelow, Path.steps_join hroot habs,
      Path.steps_ofSegments fun s hs => (hnamed s hs).slash_not_mem,
      Path.stepsOf_eq_self fun s hs => (hnamed s hs).isStepDown.1]
  · intro _
    exact hcheck
  · intro hne x hx
    rcases Path.segments_join hroot habs with ⟨front, hsegments, -⟩
    rw [pathBelow, hsegments, Path.segments_ofSegments_of_isNamed hnamed hne,
      List.getLast?_append_of_ne_nil _ hne] at hx
    exact (hnamed x (List.mem_of_mem_getLast? (Option.mem_def.mpr hx))).isStepDown.1

theorem read_pathBelow (hwf : fs.WellFormed) (hnamed : place.IsNamed)
    (hstands : fs.StandsBelow root place (.file content))
    (hcheck : checkPath (pathBelow root place) = .ok ()) :
    fs.read (pathBelow root place) = .ok content := by
  rcases hstands with ⟨top, htop, hne, hfind⟩
  have hq := isBelow_pathBelow (isEmpty_of_locate htop) hnamed hcheck
  rcases reaches_of_locate htop with ⟨-, hreaches⟩
  generalize pathBelow root place = path at hcheck hq
  rcases (List.eq_nil_or_concat place).resolve_left hne with ⟨names, x, rfl⟩
  rw [List.concat_eq_append] at *
  have hx := hnamed x (List.mem_append_right names (List.mem_singleton.mpr rfl))
  have hnames : ∀ y ∈ names, y.IsFileName := fun y hy => hnamed y (List.mem_append_left _ hy)
  rcases hq.walkFrom_eq hx.isStepDown hreaches with ⟨k, init, -, rfl, hwalk⟩
  rw [← List.append_assoc] at hfind
  have hdirectory := hwf.find?_dropLast hfind
  rw [List.dropLast_concat] at hdirectory
  have hleads := hwf.leads_of_directory (fun hup => (hnames _ hup).isStepDown.2 rfl)
    (fun y hy => (hnames y hy).short) hdirectory k
  refine read_eq_ok_iff.mpr
    ⟨top ++ Path.stepsOf init ++ [x], locate_eq_ok_iff.mpr ⟨hcheck, ?_⟩⟩
  rw [hwalk, hleads.walkFrom_append (List.mem_singleton.mpr rfl)
      (Segment.isStepDown_ne_nil hx.isStepDown), List.nil_append,
    walkFrom_standing hx.isStepDown, Purpose.refuses_nil, if_neg Bool.false_ne_true,
    if_neg (Nat.not_lt_of_le hx.short), hfind]
  rfl

end Compare

/-!
## Names of urls
-/

theorem Segment.parts_bytes {segment : Segment} (h : ∀ part ∈ segment, ∃ c, part = .char c) :
    Utf8.parts none segment.bytes = segment := by
  induction segment with
  | nil => rfl
  | cons part rest ih =>
      rw [List.forall_mem_cons] at h
      rcases h.1 with ⟨c, rfl⟩
      have hbytes : Segment.bytes (.char c :: rest) = Utf8.encodeChar c ++ Segment.bytes rest := by
        rw [Segment.bytes, List.flatMap_cons]
        rfl
      rw [hbytes, Utf8.parts_encodeChar, ih h.2]

namespace BuildPlan

open Files Compare

variable {fs : Files} {outDir expected actual : Path} {docs docs' : List Document}
  {d : Document} {place : Location} {entry : Entry}

theorem isNamed_urlNames {url : String} (hnames : IsNames url) (hfits : FitsIn outDir url) :
    Location.IsNamed (urlNames url) := by
  intro x hx
  have hsegment : x ∈ (Path.ofText url).segments := (List.mem_filter.mp hx).1
  constructor
  · exact hnames.isStepDown hx
  · exact Path.not_mem_of_mem_splitOn hsegment
  · exact hfits.short x hx
  · apply Segment.parts_bytes
    intro part hpart
    have hsub := Path.parts_ofSegments_sublist (List.singleton_sublist.mpr hsegment)
    rw [Path.ofSegments_singleton, Path.ofSegments_segments] at hsub
    rcases List.mem_map.mp (hsub.subset hpart) with ⟨c, -, rfl⟩
    exact ⟨c, rfl⟩

theorem exists_of_entryAt (h : entryAt docs place = some entry) :
    ∃ d ∈ docs, place <+: urlNames d.url := by
  cases entry with
  | file content =>
      rcases entryAt_eq_file_iff.mp ⟨content, h⟩ with ⟨d, hd, rfl⟩
      exact ⟨d, hd, List.prefix_rfl⟩
  | link target => exact absurd h (entryAt_ne_link target)
  | directory =>
      rcases exists_of_entryAt_eq_directory h with ⟨d, hd, hbegins, -⟩
      exact ⟨d, hd, hbegins⟩

/-!
## Directories that hold documents
-/

/-- A directory that holds documents, each in a file of its own, and nothing else but the
directories that they take. -/
structure HoldsDocuments (fs : Files) (outDir : Path) (docs : List Document) : Prop where
  wellFormed : fs.WellFormed
  stands : ∃ top, fs.locate .target outDir = .ok (.entry top .directory) ∧
    ∀ names, names ≠ [] → fs.find? (top ++ names) = entryAt docs names
  isNames : ∀ d ∈ docs, IsNames d.url
  fits : ∀ d ∈ docs, FitsIn outDir d.url
  apart : docs.Pairwise fun a b => Apart (urlNames a.url) (urlNames b.url)

namespace HoldsDocuments

theorem standsBelow_iff (h : HoldsDocuments fs outDir docs) :
    fs.StandsBelow outDir place entry ↔ place ≠ [] ∧ entryAt docs place = some entry := by
  rcases h.stands with ⟨top, htop, htree⟩
  rw [Files.standsBelow_iff htop]
  apply and_congr_right
  intro hne
  rw [htree place hne]

theorem holdsFile_iff (h : HoldsDocuments fs outDir docs) :
    fs.HoldsFile outDir place ↔ ∃ d ∈ docs, urlNames d.url = place := by
  constructor
  · intro hfile
    rcases hfile with ⟨entry, hstands, hne⟩
    have hentry := (h.standsBelow_iff.mp hstands).2
    cases entry with
    | file content => exact entryAt_eq_file_iff.mp ⟨content, hentry⟩
    | link target => exact absurd hentry (entryAt_ne_link target)
    | directory => exact absurd rfl hne
  · intro hd
    rcases entryAt_eq_file_iff.mpr hd with ⟨content, hentry⟩
    rcases hd with ⟨d, hd, rfl⟩
    exact ⟨.file content, h.standsBelow_iff.mpr ⟨(h.isNames d hd).ne_nil, hentry⟩, by simp⟩

theorem isNamed_checkPath (h : HoldsDocuments fs outDir docs)
    (hstands : fs.StandsBelow outDir place entry) :
    place.IsNamed ∧ checkPath (pathBelow outDir place) = .ok () := by
  rcases h.stands with ⟨top, htop, -⟩
  have hout := isEmpty_of_locate htop
  rcases h.standsBelow_iff.mp hstands with ⟨hne, hentry⟩
  rcases exists_of_entryAt hentry with ⟨d, hd, hbegins⟩
  have hnames := h.isNames d hd
  have hnamed : place.IsNamed :=
    fun x hx => isNamed_urlNames hnames (h.fits d hd) x (hbegins.subset hx)
  have habs := Path.isAbsolute_ofSegments hnamed
  refine ⟨hnamed, checkPath_of_sublist ?_ ?_ (h.fits d hd).checked⟩
  · apply Path.parts_join_sublist habs hnames.relative
    have hsub := Path.parts_ofSegments_sublist (hbegins.sublist.trans List.filter_sublist)
    rwa [Path.ofSegments_segments] at hsub
  · apply Path.isEmpty_of_steps_ne_nil
    rw [pathBelow, Path.steps_join hout habs,
      Path.steps_ofSegments fun s hs => (hnamed s hs).slash_not_mem,
      Path.stepsOf_eq_self fun s hs => (hnamed s hs).isStepDown.1]
    simp [hne]

theorem opensDirectories (h : HoldsDocuments fs outDir docs) : OpensDirectories fs outDir := by
  intro place hstands
  rcases h.isNamed_checkPath hstands with ⟨hnamed, hcheck⟩
  rcases hstands with ⟨top, htop, -, hfind⟩
  rcases reaches_of_locate htop with ⟨-, hreaches⟩
  have hq := isBelow_pathBelow (isEmpty_of_locate htop) hnamed hcheck
  exact isDirectory_iff.mpr ⟨hcheck, _, reaches_of_directory h.wellFormed hreaches
    (fun y hy => (hnamed y hy).isStepDown) (fun y hy => (hnamed y hy).short) hq hfind⟩

theorem collect_eq_ok (h : HoldsDocuments fs outDir docs) :
    ∃ files, collect fs outDir = .ok files ∧ AreFiles fs outDir files := by
  apply Compare.collect_eq_ok h.wellFormed
  · intro place entry hstands
    exact (h.isNamed_checkPath hstands).1
  · rcases h.stands with ⟨top, htop, -⟩
    rw [isDirectory, htop]
  · exact h.opensDirectories

theorem entryAt_eq (h : HoldsDocuments fs outDir docs) (hd : d ∈ docs) :
    entryAt docs (urlNames d.url) = some (.file (Utf8.encode d.html.html)) := by
  have hapart := h.apart
  rcases List.append_of_mem hd with ⟨before, after, rfl⟩
  apply entryAt_last
  intro other hother hsame
  have hafter := (List.pairwise_append.mp hapart).2.1
  exact (List.rel_of_pairwise_cons hafter hother).2 (hsame ▸ List.prefix_rfl)

theorem read (h : HoldsDocuments fs outDir docs) (hd : d ∈ docs) :
    fs.read (pathBelow outDir (urlNames d.url)) = .ok (Utf8.encode d.html.html) := by
  have hstands := h.standsBelow_iff.mpr ⟨(h.isNames d hd).ne_nil, h.entryAt_eq hd⟩
  rcases h.isNamed_checkPath hstands with ⟨hnamed, hcheck⟩
  exact read_pathBelow h.wellFormed hnamed hstands hcheck

end HoldsDocuments

theorem holdsDocuments_of_build {changed : Files} {plan : BuildPlan} {pages : List Page}
    {result : BuildResult} (hwf : fs.WellFormed) (hfresh : IsFresh fs outDir)
    (hapart : pages.Pairwise fun a b => Apart (urlNames a.url) (urlNames b.url))
    (hbuild : plan.build pages outDir fs = .ok result changed) :
    HoldsDocuments changed outDir (Layout.documents pages plan.settings) := by
  rcases exists_of_build hbuild with ⟨written, made, -, -, hrenew, hwrite⟩
  rcases hfresh made hrenew with ⟨top, hlocate, hempty⟩
  have hmade := (renewOutDir_addsDirectories hwf outDir).wellFormed
  rw [FileAction.after_of_ok hrenew] at hmade
  rcases outputAt_of_empty hmade hlocate hempty with ⟨houtput, hout⟩
  rcases exists_top_of_build hwf hfresh hbuild with ⟨-, top', hlocate', hwf', hnames, htree⟩
  refine ⟨hwf', ⟨top', hlocate', htree⟩, hnames, ?_, ?_⟩
  · exact fitsIn_of_writeDocuments hout hnames houtput hwrite
  · rw [Layout.documents, List.pairwise_map]
    exact hapart

/-!
## Two versions of documents
-/

def SameUrls (docs docs' : List Document) : Prop :=
  List.Forall₂ (fun d d' => d.url = d'.url) docs docs'

namespace SameUrls

theorem symm (h : SameUrls docs docs') : SameUrls docs' docs :=
  h.flip.imp fun _ _ heq => heq.symm

theorem url_eq {pair : Document × Document} (h : SameUrls docs docs')
    (hpair : pair ∈ docs.zip docs') : pair.1.url = pair.2.url :=
  (List.forall₂_iff_zip.mp h).2 hpair

theorem map_fst_zip (h : SameUrls docs docs') : (docs.zip docs').map Prod.fst = docs :=
  List.map_fst_zip (Nat.le_of_eq h.length_eq)

theorem exists_pair (h : SameUrls docs docs') (hd : d ∈ docs) :
    ∃ d', (d, d') ∈ docs.zip docs' := by
  rw [← h.map_fst_zip] at hd
  rcases List.mem_map.mp hd with ⟨⟨_, d'⟩, hpair, rfl⟩
  exact ⟨d', hpair⟩

theorem exists_url_eq (h : SameUrls docs docs') (hd : d ∈ docs) :
    ∃ d' ∈ docs', d'.url = d.url := by
  rcases h.exists_pair hd with ⟨d', hpair⟩
  exact ⟨d', (List.of_mem_zip hpair).2, (h.url_eq hpair).symm⟩

end SameUrls

def versionDifference? (pair : Document × Document) : Option Difference :=
  if pair.1.html = pair.2.html then none
  else some (.mismatch (.ofSegments (urlNames pair.1.url)) pair.1.html.html pair.2.html.html)

theorem versionDifference?_eq_some_iff {pair : Document × Document} {difference : Difference} :
    versionDifference? pair = some difference ↔ pair.1.html ≠ pair.2.html ∧
      difference = .mismatch (.ofSegments (urlNames pair.1.url)) pair.1.html.html
        pair.2.html.html := by
  rw [versionDifference?, Option.ite_none_left_eq_some, Option.some.injEq,
    eq_comm (a := difference)]

theorem nodup_versionDifferences (h : HoldsDocuments fs expected docs)
    (hsame : SameUrls docs docs') :
    ((docs.zip docs').filterMap versionDifference?).Nodup := by
  have hnamed : ∀ pair ∈ docs.zip docs', Location.IsNamed (urlNames pair.1.url) ∧
      urlNames pair.1.url ≠ [] := by
    intro pair hpair
    have hd := (List.of_mem_zip hpair).1
    exact ⟨isNamed_urlNames (h.isNames _ hd) (h.fits _ hd), (h.isNames _ hd).ne_nil⟩
  have hapart := h.apart
  rw [← hsame.map_fst_zip, List.pairwise_map] at hapart
  rw [List.Nodup, List.pairwise_filterMap]
  refine hapart.imp_of_mem ?_
  intro a b ha hb hab x hx y hy hxy
  rcases versionDifference?_eq_some_iff.mp hx with ⟨-, rfl⟩
  rcases versionDifference?_eq_some_iff.mp hy with ⟨-, rfl⟩
  have hnames := Path.ofSegments_inj (hnamed a ha).1 (hnamed b hb).1 (hnamed a ha).2
    (hnamed b hb).2 (Difference.mismatch.inj hxy).1
  exact hab.1 (hnames ▸ List.prefix_rfl)

theorem holdsFile_versions (h : HoldsDocuments fs expected docs)
    (h' : HoldsDocuments fs actual docs') (hsame : SameUrls docs docs') :
    fs.HoldsFile expected place ↔ fs.HoldsFile actual place := by
  rw [h.holdsFile_iff, h'.holdsFile_iff]
  constructor
  · intro hd
    rcases hd with ⟨d, hd, rfl⟩
    rcases hsame.exists_url_eq hd with ⟨d', hd', hurl⟩
    exact ⟨d', hd', by rw [hurl]⟩
  · intro hd
    rcases hd with ⟨d', hd', rfl⟩
    rcases hsame.symm.exists_url_eq hd' with ⟨d, hd, hurl⟩
    exact ⟨d, hd, by rw [hurl]⟩

theorem read_versions (h : HoldsDocuments fs expected docs)
    (h' : HoldsDocuments fs actual docs') (hsame : SameUrls docs docs')
    {pair : Document × Document} (hpair : pair ∈ docs.zip docs') :
    fs.read (pathBelow expected (urlNames pair.1.url)) = .ok (Utf8.encode pair.1.html.html) ∧
      fs.read (pathBelow actual (urlNames pair.1.url)) =
        .ok (Utf8.encode pair.2.html.html) := by
  have hread' := h'.read (List.of_mem_zip hpair).2
  rw [← hsame.url_eq hpair] at hread'
  exact ⟨h.read (List.of_mem_zip hpair).1, hread'⟩

theorem mem_versions_iff {found : List Difference} {difference : Difference}
    (h : HoldsDocuments fs expected docs) (h' : HoldsDocuments fs actual docs')
    (hsame : SameUrls docs docs') (hfound : IsComparison fs expected actual found) :
    difference ∈ found ↔ difference ∈ (docs.zip docs').filterMap versionDifference? := by
  have hversions : difference ∈ (docs.zip docs').filterMap versionDifference? ↔
      ∃ pair ∈ docs.zip docs', pair.1.html ≠ pair.2.html ∧
        difference = .mismatch (.ofSegments (urlNames pair.1.url)) pair.1.html.html
          pair.2.html.html := by
    simp only [List.mem_filterMap, versionDifference?_eq_some_iff]
  rw [hversions]
  constructor
  · intro hmem
    cases difference with
    | missing p =>
        rcases (hfound.missing_iff p).mp hmem with ⟨place, -, hplace, hnot⟩
        exact absurd ((holdsFile_versions h h' hsame).mp hplace) hnot
    | unexpected p =>
        rcases (hfound.unexpected_iff p).mp hmem with ⟨place, -, hplace, hnot⟩
        exact absurd ((holdsFile_versions h h' hsame).mpr hplace) hnot
    | mismatch p wanted given =>
        rcases (hfound.mismatch_iff p wanted given).mp hmem with
          ⟨place, x, y, rfl, hplace, -, hx, hy, hne, rfl, rfl⟩
        rcases h.holdsFile_iff.mp hplace with ⟨d, hd, rfl⟩
        rcases hsame.exists_pair hd with ⟨d', hpair⟩
        rcases read_versions h h' hsame hpair with ⟨hx', hy'⟩
        obtain rfl := Except.ok.inj (hx.symm.trans hx')
        obtain rfl := Except.ok.inj (hy.symm.trans hy')
        refine ⟨(d, d'), hpair, ?_, ?_⟩
        · intro hhtml
          exact hne (by rw [hhtml])
        · rw [Utf8.decodeLossy_encode, Utf8.decodeLossy_encode]
  · intro hmem
    rcases hmem with ⟨pair, hpair, hne, rfl⟩
    rcases read_versions h h' hsame hpair with ⟨hx, hy⟩
    have hplace := h.holdsFile_iff.mpr ⟨pair.1, (List.of_mem_zip hpair).1, rfl⟩
    refine (hfound.mismatch_iff _ _ _).mpr ⟨urlNames pair.1.url, _, _, rfl, hplace,
      (holdsFile_versions h h' hsame).mp hplace, hx, hy, ?_, ?_, ?_⟩
    · intro heq
      exact hne (congrArg Markup.mk (Utf8.encode_injective heq))
    · rw [Utf8.decodeLossy_encode]
    · rw [Utf8.decodeLossy_encode]

/-- A comparison of two versions of documents finds those that differ. -/
theorem compareDirectories_versions (h : HoldsDocuments fs expected docs)
    (h' : HoldsDocuments fs actual docs') (hsame : SameUrls docs docs') :
    ∃ found, compareDirectories fs expected actual = .ok found ∧
      found.Perm ((docs.zip docs').filterMap versionDifference?) ∧
      found.Pairwise fun d e => d.path.names < e.path.names := by
  rcases h.collect_eq_ok with ⟨E, hE, hfilesE⟩
  rcases h'.collect_eq_ok with ⟨A, hA, hfilesA⟩
  have hread : ∀ file ∈ E, file ∈ A → IsReadBoth fs expected actual file := by
    intro file hfile _
    rcases h.holdsFile_iff.mp ((hfilesE.mem_iff file).mp hfile) with ⟨d, hd, rfl⟩
    rcases hsame.exists_pair hd with ⟨d', hpair⟩
    rcases read_versions h h' hsame hpair with ⟨hx, hy⟩
    exact ⟨_, _, hx, hy⟩
  have hfound := isComparison_differencesAt hfilesE hfilesA hread
  refine ⟨_, compareDirectories_eq_ok hE hA hread, ?_, ?_⟩
  · rw [List.perm_ext_iff_of_nodup (List.Nodup.of_map _ hfound.nodup)
      (nodup_versionDifferences h hsame)]
    intro difference
    exact mem_versions_iff h h' hsame hfound
  · exact hfound.pairwise fun place => (holdsFile_versions h h' hsame).mpr

end BuildPlan

end StaticSite
