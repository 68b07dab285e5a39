import Beatmap.Proofs.Placement

/-!
# Extraction in an arbitrary tree

Extracting ordinary entries depends only on the working directory and changes nothing else. The
first part is a simulation: trees that agree below the working directory (`AgreeBelow`) give the
same results and agree there afterwards (`place_simulates`). The second part is that every step
preserves the list of nodes outside of the working directory (`Tree.outside`).

Consequently, in every tree in which the working directory can be created (`HasRoom`), an archive
with ordinary entries has the same result as in the bare tree, and removing the working directory
restores the tree (`ofArchiveIn_eq`).
-/

namespace Beatmap

namespace Files.Tree

/-! ## Trees that agree below a route -/

/-- The trees have the same nodes at and below a route. -/
def AgreeBelow (place : Route) (t t' : Tree) : Prop :=
  ∀ steps, t'.node? (place ++ steps) = t.node? (place ++ steps)

variable {place : Route} {t t' : Tree}

theorem AgreeBelow.put (h : AgreeBelow place t t') {steps : List String} (hne : place ++ steps ≠ [])
    (node : Node) :
    AgreeBelow place (t.put (place ++ steps) node) (t'.put (place ++ steps) node) := by
  intro other
  by_cases ho : place ++ other = place ++ steps
  · rw [ho, node?_put_self t hne, node?_put_self t' hne]
  · rw [node?_put_of_ne t ho, node?_put_of_ne t' ho, h other]

/-- Creating directories preserves the agreement and gives the same result. -/
theorem AgreeBelow.createOnWay (h : AgreeBelow place t t') (before : List String) (begun : Bool)
    {steps : List String} (hs : ∀ step ∈ steps, LeadsOn step) :
    (t'.createOnWay (place ++ before) begun steps).2
      = (t.createOnWay (place ++ before) begun steps).2
      ∧ AgreeBelow place (t.createOnWay (place ++ before) begun steps).1
        (t'.createOnWay (place ++ before) begun steps).1 := by
  induction steps generalizing t t' before begun with
  | nil => exact ⟨rfl, h⟩
  | cons step rest ih =>
    obtain ⟨⟨hempty, hdot, hdots⟩, hs⟩ := List.forall_mem_cons.mp hs
    have hidle : ¬(step = "" ∨ step = ".") := fun h => h.elim hempty hdot
    have hnext : place ++ before ++ [step] = place ++ (before ++ [step]) := List.append_assoc ..
    simp only [Tree.createOnWay, if_neg hidle, if_neg hdots]
    rw [hnext, h (before ++ [step])]
    cases t.node? (place ++ (before ++ [step])) with
    | some node =>
      cases node with
      | directory => exact ih h _ begun hs
      | file content => exact ⟨rfl, h⟩
    | none =>
      dsimp only
      split
      next => exact ⟨rfl, h⟩
      next => exact ih (h.put (by simp) .directory) _ true hs

theorem AgreeBelow.follow (h : AgreeBelow place t t') (before : List String) {steps : List String}
    (hs : ∀ step ∈ steps, LeadsOn step) :
    t'.follow (place ++ before) steps = t.follow (place ++ before) steps := by
  induction steps generalizing before with
  | nil => rfl
  | cons step rest ih =>
    obtain ⟨⟨hempty, hdot, hdots⟩, hs⟩ := List.forall_mem_cons.mp hs
    have hidle : ¬(step = "" ∨ step = ".") := fun h => h.elim hempty hdot
    simp only [Tree.follow, if_neg hidle, if_neg hdots]
    rw [h before, List.append_assoc, ih (before ++ [step]) hs]

/-- Agreeing trees give the same target for writing. -/
theorem AgreeBelow.placeToWrite (h : AgreeBelow place t t') {steps : List String}
    (hs : ∀ step ∈ steps, LeadsOn step) :
    t'.placeToWrite place steps = t.placeToWrite place steps := by
  have hnames : ∀ step ∈ (steps.filter (· != "")).dropLast, LeadsOn step := fun step hm =>
    hs step (List.mem_of_mem_filter (List.dropLast_subset _ hm))
  have hfollow := h.follow [] hnames
  rw [List.append_nil] at hfollow
  simp only [Tree.placeToWrite, hfollow]
  cases hf : t.follow place (steps.filter (· != "")).dropLast with
  | error refusal => rfl
  | ok parent =>
    obtain ⟨rfl, -⟩ := follow_eq_ok hnames hf
    simp only [List.append_assoc, h _]

/-! ## Nodes outside of a route -/

/-- Setting a node at or below a route does not affect the nodes outside of it. -/
theorem outside_put {route : Route} (h : place <+: route) (node : Node) :
    (t.put route node).outside place = t.outside place := by
  have hroute : place.isPrefixOf route = true := List.isPrefixOf_iff_prefix.mpr h
  rw [outside, put, List.filter_cons_of_neg (by simp [hroute]), others, List.filter_filter]
  refine List.filter_congr fun n _ => ?_
  by_cases hn : n.1 = route
  · simp [hn, hroute]
  · simp [hn]

theorem outside_createOnWay (t : Tree) (place : Route) (before : List String) (begun : Bool)
    {steps : List String}
    (hs : ∀ step ∈ steps, LeadsOn step) :
    (t.createOnWay (place ++ before) begun steps).1.outside place = t.outside place := by
  induction steps generalizing t before begun with
  | nil => rfl
  | cons step rest ih =>
    obtain ⟨⟨hempty, hdot, hdots⟩, hs⟩ := List.forall_mem_cons.mp hs
    have hidle : ¬(step = "" ∨ step = ".") := fun h => h.elim hempty hdot
    have hnext : place ++ before ++ [step] = place ++ (before ++ [step]) := List.append_assoc ..
    simp only [Tree.createOnWay, if_neg hidle, if_neg hdots]
    rw [hnext]
    split
    next => exact ih _ _ begun hs
    next => rfl
    next =>
      split
      next => rfl
      next => rw [ih _ _ true hs, outside_put (List.prefix_append ..)]

/-- A tree without nodes at or below a route is restored by `eraseAll`. -/
theorem eraseAll_eq {start : Tree} (hfresh : ∀ steps, t.node? (place ++ steps) = none)
    (h : start.outside place = t.outside place) : start.eraseAll place = t := by
  have hall : t.outside place = t.nodes := by
    refine List.filter_eq_self.mpr fun n hn => ?_
    by_contra hp
    obtain ⟨steps, hsteps⟩ : place <+: n.1 := by simpa using hp
    have hnone := hfresh steps
    rw [hsteps] at hnone
    have hne : n.1 ≠ [] := by
      intro hnil
      rw [hnil, node?_root] at hnone
      cases hnone
    rw [(node?_eq_some_iff t hne).mpr hn] at hnone
    cases hnone
  cases t
  simp only [eraseAll, h, hall]

end Files.Tree

namespace Archive

open Files
open Files.Tree (AgreeBelow Grown)
open EntryPath (IsPlain)

/-! ## Placing one file -/

variable {t t' : Tree} {path : EntryPath}

theorem agreeBelow_makeWay (h : AgreeBelow workplace t t') (hp : IsPlain path) :
    (makeWay t' path).2 = (makeWay t path).2
      ∧ AgreeBelow workplace (makeWay t path).1 (makeWay t' path).1 := by
  rw [makeWay_of_isPlain t hp, makeWay_of_isPlain t' hp]
  split
  next => exact ⟨rfl, h⟩
  next =>
    have hmade := h.createOnWay [] false fun step hs => hp.leadsOn step (List.dropLast_subset _ hs)
    rwa [List.append_nil] at hmade

/-- In agreeing trees, writing a file succeeds in both or fails for the same reason. -/
theorem writeEntry_cases (content : ByteArray) (h : AgreeBelow workplace t t') (hp : IsPlain path) :
    (∃ refusal, writeEntry t path content = .error refusal
        ∧ writeEntry t' path content = .error refusal)
      ∨ path ≠ []
        ∧ writeEntry t path content = .ok (t.put (workplace ++ path) (.file content))
        ∧ writeEntry t' path content = .ok (t'.put (workplace ++ path) (.file content)) := by
  have hplace := h.placeToWrite hp.leadsOn
  unfold writeEntry
  rw [Tree.writeFile, Tree.writeFile, originOf_of_isPlain hp, hplace]
  split
  next => exact Or.inl ⟨_, rfl, rfl⟩
  next =>
    cases hroute : t.placeToWrite workplace path with
    | error refusal => exact Or.inl ⟨refusal, rfl, rfl⟩
    | ok route =>
      obtain ⟨hne, rfl, -⟩ := Tree.placeToWrite_eq_ok hp.leadsOn hroute
      exact Or.inr ⟨hne, rfl, rfl⟩

theorem outside_makeWay (t : Tree) (hp : IsPlain path) :
    (makeWay t path).1.outside workplace = t.outside workplace := by
  rw [makeWay_of_isPlain t hp]
  split
  next => rfl
  next =>
    have hout := Tree.outside_createOnWay t workplace [] false fun step hs =>
      hp.leadsOn step (List.dropLast_subset _ hs)
    rwa [List.append_nil] at hout

/-- Placing a file depends only on the working directory and changes nothing outside of it. -/
theorem place_simulates (content : ByteArray) (h : AgreeBelow workplace t t') (hp : IsPlain path)
    (hwork : t.node? workplace = some .directory) :
    (place t' path content).2 = (place t path content).2
      ∧ AgreeBelow workplace (place t path content).1 (place t' path content).1
      ∧ (place t' path content).1.outside workplace = t'.outside workplace := by
  have hwork' : t'.node? workplace = some .directory := (h []).trans hwork
  have hout := outside_makeWay t' hp
  obtain ⟨hrefusal, hmade⟩ := agreeBelow_makeWay h hp
  rw [place_of_isPlain content hp hwork, place_of_isPlain content hp hwork']
  cases hmake : makeWay t path with
  | mk grown refusal? =>
    cases hmake' : makeWay t' path with
    | mk grown' refusal?' =>
      rw [hmake, hmake'] at hrefusal hmade
      rw [hmake'] at hout
      dsimp only at hrefusal hmade hout
      subst hrefusal
      cases refusal?' with
      | some refusal => exact ⟨rfl, hmade, hout⟩
      | none =>
        rcases writeEntry_cases content hmade hp with ⟨refusal, hw, hw'⟩ | ⟨hne, hw, hw'⟩
        · simp only [hw, hw']
          exact ⟨trivial, hmade, hout⟩
        · simp only [hw, hw']
          refine ⟨trivial, hmade.put (by simp [hne]) _, ?_⟩
          rw [Tree.outside_put (List.prefix_append ..), hout]

/-! ## Extracting all entries -/

/-- The extraction `x` in the tree `start` follows the extraction `x'` in the bare tree: they have
the same results and agree below the working directory, and `x` has not changed any other node of
`start`. -/
structure Follows (start : Tree) (x x' : Extraction) : Prop where
  results : x'.results = x.results
  panic : x'.panic? = x.panic?
  below : AgreeBelow workplace x.tree x'.tree
  outside : x'.tree.outside workplace = start.outside workplace

theorem Follows.take {start : Tree} {x x' : Extraction} (h : Follows start x x') {entry : Entry}
    (hordinary : entry.IsOrdinary) (hwork : x.tree.node? workplace = some .directory) :
    Follows start (x.take entry) (x'.take entry) := by
  cases hx : x.panic? with
  | some panic =>
    have hx' : x'.panic? = some panic := h.panic.trans hx
    rwa [Extraction.take_of_panic (by simp [hx]), Extraction.take_of_panic (by simp [hx'])]
  | none =>
    have hx' : x'.panic? = none := h.panic.trans hx
    cases hsize : entry.isOversized with
    | true =>
      rw [Extraction.take_of_isOversized hx hsize, Extraction.take_of_isOversized hx' hsize]
      exact ⟨h.results, rfl, h.below, h.outside⟩
    | false =>
      rw [Extraction.take_of_not_isOversized hx hsize, Extraction.take_of_not_isOversized hx' hsize,
        h.results]
      cases entry with
      | unopenable defect | directory | astray name | damaged path declared defect =>
        exact ⟨rfl, rfl, h.below, h.outside⟩
      | file path declared content =>
        obtain ⟨name, hv, hname⟩ := hordinary
        have hplain := EntryPath.isPlain_of_ofName? hv hname
        obtain ⟨hrefusal, hbelow, hout⟩ := place_simulates content h.below hplain hwork
        rw [h.outside] at hout
        simp only [extractEntry]
        cases hplace : place x.tree path content with
        | mk t refusal? =>
          cases hplace' : place x'.tree path content with
          | mk t' refusal?' =>
            rw [hplace, hplace'] at hrefusal hbelow
            rw [hplace'] at hout
            dsimp only at hrefusal
            subst hrefusal
            cases refusal?' with
            | none => exact ⟨rfl, rfl, hbelow, hout⟩
            | some refusal => exact ⟨rfl, rfl, hbelow, hout⟩

theorem follows_ofEntries {start : Tree} (hbelow : AgreeBelow workplace emptyWorkplace start)
    (entries : List Entry) (h : ∀ entry ∈ entries, entry.IsOrdinary) :
    Follows start (.ofEntries entries) (.ofEntries entries start) := by
  induction entries using List.reverseRecOn with
  | nil => exact ⟨rfl, rfl, hbelow, rfl⟩
  | append_singleton before last ih =>
    have hbefore : ∀ entry ∈ before, entry.IsOrdinary := fun entry hm =>
      h entry (List.mem_append_left _ hm)
    rw [Extraction.ofEntries_concat, Extraction.ofEntries_concat]
    exact (ih hbefore).take (h last (by simp)) (Extraction.holds_ofEntries before hbefore).workplace

/-! ## Archives -/

/-- The working directory can be created in the tree. -/
structure HasRoom (t : Tree) : Prop where
  parent : t.node? workplace.dropLast = some .directory
  fresh : ∀ steps, t.node? (workplace ++ steps) = none

theorem HasRoom.openWorkplace_eq (h : HasRoom t) :
    openWorkplace t = .ok (t.put workplace .directory) := by
  have hfresh := h.fresh []
  rw [List.append_nil] at hfresh
  simp only [openWorkplace, h.parent, hfresh]

/-- There is room if the working directory can be created and its name is not in use. -/
theorem HasRoom.of_openWorkplace {work : Tree} (h : openWorkplace t = .ok work)
    (hfresh : ∀ steps, t.node? (workplace ++ steps) = none) : HasRoom t := by
  refine ⟨?_, hfresh⟩
  unfold openWorkplace at h
  split at h
  next hparent _ => exact hparent
  next => cases h
  next => cases h
  next => cases h

theorem hasRoom_bareTree : HasRoom bareTree where
  parent := rfl
  fresh steps := by simp [bareTree, workplace, Tree.node?, Tree.put, Tree.others, Tree.empty]

/-- The empty working directory is the same in every tree. -/
theorem HasRoom.agreeBelow (h : HasRoom t) :
    AgreeBelow workplace emptyWorkplace (t.put workplace .directory) := by
  have hfresh : AgreeBelow workplace bareTree t := fun steps =>
    (h.fresh steps).trans (hasRoom_bareTree.fresh steps).symm
  have hput := hfresh.put (by decide : workplace ++ [] ≠ []) .directory
  rwa [List.append_nil] at hput

/-- Removing the working directory restores the tree if nothing outside has changed. -/
theorem HasRoom.closeWorkplace_eq (h : HasRoom t) {work : Tree}
    (hout : work.outside workplace = (t.put workplace .directory).outside workplace) :
    closeWorkplace work = t :=
  Tree.eraseAll_eq h.fresh (hout.trans (Tree.outside_put (List.prefix_refl _) _))

end Archive

namespace Processed

open Archive (Entry Extraction HasRoom workplace)

variable {t : Files.Tree} {archive : ByteArray}
  {entriesOf : ByteArray → Except Archive.Defect (List Entry)}

/-- The mapset depends only on the results of the extraction. -/
theorem ofExtraction_congr (filename : String) (archive : ByteArray) (pool : Option Pool)
    {x x' : Extraction} (hresults : x'.results = x.results) (hpanic : x'.panic? = x.panic?) :
    ofExtraction filename archive pool x' = ofExtraction filename archive pool x := by
  have hmembers : membersOf x' = membersOf x := by
    rw [membersOf, membersOf, Extraction.files, Extraction.files, hresults]
  have hcomplaints : x'.complaints = x.complaints := by
    rw [Extraction.complaints, Extraction.complaints, hresults]
  simp only [ofExtraction, hpanic, hmembers, hcomplaints]

/-- An archive with ordinary entries has the same result in every tree, and leaves the tree
unchanged. -/
theorem ofArchiveIn_eq (hroom : HasRoom t) (filename : String) (pool : Option Pool)
    (h : ∀ entries, entriesOf archive = .ok entries → ∀ entry ∈ entries, entry.IsOrdinary) :
    ofArchiveIn t filename archive pool entriesOf
      = (t, ofArchive filename archive pool entriesOf) := by
  simp only [ofArchiveIn, hroom.openWorkplace_eq]
  cases hopen : entriesOf archive with
  | error defect => rw [ofArchive_of_error filename pool hopen, hroom.closeWorkplace_eq rfl]
  | ok entries =>
    have hfollows := Archive.follows_ofEntries hroom.agreeBelow entries (h entries hopen)
    dsimp only
    rw [ofArchive_of_ok filename pool hopen, hroom.closeWorkplace_eq hfollows.outside, ofEntries,
      ofExtraction_congr filename archive pool hfollows.results hfollows.panic]

/-- The archive at a path, if it can be read and opened, has ordinary entries only. -/
def HasOrdinaryEntries (t : Files.Tree) (place : Files.Route)
    (entriesOf : ByteArray → Except Archive.Defect (List Entry)) (path : String) : Prop :=
  ∀ archive entries, t.readPath place path = .ok archive → entriesOf archive = .ok entries
    → ∀ entry ∈ entries, entry.IsOrdinary

/-- Processing an archive with ordinary entries leaves the tree unchanged, also if the working
directory cannot be created. -/
theorem ofFile_fst_eq (hfresh : ∀ steps, t.node? (workplace ++ steps) = none)
    {place : Files.Route} {path : String} (pool : Option Pool)
    (h : HasOrdinaryEntries t place entriesOf path) :
    (ofFile t place path pool entriesOf).1 = t := by
  unfold ofFile
  cases hread : t.readPath place path with
  | error refusal => rfl
  | ok archive =>
    dsimp only
    cases hwork : Archive.openWorkplace t with
    | error refusal => simp only [ofArchiveIn, hwork]
    | ok work =>
      rw [ofArchiveIn_eq (.of_openWorkplace hwork hfresh) _ pool (h archive · hread)]

end Processed

end Beatmap
