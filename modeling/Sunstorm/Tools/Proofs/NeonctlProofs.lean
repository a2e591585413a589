import Sunstorm.Codec.Proofs.JoinProofs
import Sunstorm.Sorting.Proofs.SortingProofs
import Sunstorm.Tools.Neonctl

/-!
# Proofs: a local cluster is started with the numbers it was created with

`create` numbers the regions and puts the numbers into the names of their directories; `start`
numbers the sorted names. So the numbers are kept as long as the names are sorted by their numbers,
that is for at most nine regions besides the global one.
-/

namespace Sunstorm

open Codec Sorting

/-- Different numbers lead to different directories. -/
theorem joinPath_numbered_injective (path base : String) :
    Function.Injective fun n => joinPath path (numbered base n) := by
  intro m n h
  have hhead : (numbered base m).toList.head? = some '/' ↔
      (numbered base n).toList.head? = some '/' :=
    (head?_numbered_iff (by decide)).trans (head?_numbered_iff (by decide)).symm
  simp only [joinPath, hhead] at h
  split_ifs at h
  · exact numbered_injective base h
  · exact numbered_injective base ((String.append_right_inj path).mp h)
  · exact numbered_injective base ((String.append_right_inj (path ++ "/")).mp h)

namespace Neonctl

variable {args : CreateArgs} {start : StartArgs} {listing : List DirEntry} {created : List Act}
  {region : String} {i count : Nat} {call : Call}

/-! ## `create` -/

theorem getElem?_regionNames :
    args.regionNames[i]? = some region ↔
      (i : Int) ≤ args.numRegions ∧ region = numbered args.regionPrefix i := by
  rw [CreateArgs.regionNames, List.getElem?_map, Option.map_eq_some_iff]
  constructor
  · rintro ⟨j, hj, rfl⟩
    obtain ⟨hi, rfl⟩ := List.getElem?_eq_some_iff.mp hj
    rw [List.length_range] at hi
    rw [List.getElem_range]
    exact ⟨by omega, rfl⟩
  · rintro ⟨hi, rfl⟩
    exact ⟨i, List.getElem?_range (by omega), rfl⟩

theorem mem_otherRegions :
    (region, i) ∈ args.otherRegions ↔
      1 ≤ i ∧ (i : Int) ≤ args.numRegions ∧ region = numbered args.regionPrefix i := by
  rw [CreateArgs.otherRegions, List.mem_filter, List.mem_zipIdx_iff_getElem?, getElem?_regionNames,
    decide_eq_true_eq]
  constructor
  · rintro ⟨⟨hle, hregion⟩, hi⟩
    exact ⟨Nat.pos_of_ne_zero hi, hle, hregion⟩
  · rintro ⟨hi, hle, hregion⟩
    exact ⟨⟨hle, hregion⟩, Nat.ne_of_gt hi⟩

theorem doCommand_eq_ok (h : args.doCommand = .ok created) :
    ∃ globalRegion, args.regionNames[0]? = some globalRegion ∧
      created = args.initGlobal (args.regionDir globalRegion) ++
        args.otherRegions.map
          (fun e => args.branchTimeline (args.regionDir globalRegion) e.1 e.2) ++
        (if args.keepNeon then [] else [args.neon ["stop"] (args.regionDir globalRegion)]) ++
        args.otherRegions.flatMap
          (fun e => args.cloneRegion (args.regionDir globalRegion) e.1 e.2) ++
        args.otherRegions.map fun e => args.createEndpoint e.1 e.2 := by
  unfold CreateArgs.doCommand at h
  cases hglobal : args.regionNames[0]? with
  | none =>
    rw [hglobal] at h
    exact absurd h (by simp)
  | some globalRegion =>
    rw [hglobal] at h
    exact ⟨globalRegion, rfl, (Except.ok.inj h).symm⟩

theorem mem_calls {acts : List Act} : call ∈ calls acts ↔ Act.run call ∈ acts := by
  rw [calls, List.mem_filterMap]
  constructor
  · rintro ⟨act, hact, heq⟩
    cases act with
    | run c =>
      obtain rfl := Option.some.inj heq
      exact hact
    | makedirs path => exact absurd heq (by simp)
    | cloneNeon src dst ordinal => exact absurd heq (by simp)
  · intro h
    exact ⟨.run call, h, rfl⟩

/-- The endpoint of a region is created in its directory, with the port of the region. -/
theorem exists_endpoint (h : args.doCommand = .ok created)
    (hmem : (region, i) ∈ args.otherRegions) :
    ∃ call ∈ calls created, call.cwd = args.regionDir region ∧
      call.createdPort = some (toString (55432 + 2 * i)) := by
  obtain ⟨globalRegion, -, rfl⟩ := doCommand_eq_ok h
  have hcall : args.createEndpoint region i ∈
      args.otherRegions.map fun e => args.createEndpoint e.1 e.2 :=
    List.mem_map.mpr ⟨(region, i), hmem, rfl⟩
  exact ⟨_, mem_calls.mpr (List.mem_append_right _ hcall), rfl, rfl⟩

/-! ## `start` -/

/-- Which xactservers are started. -/
theorem mem_xactservers :
    call ∈ xactservers (start.startAllRegions listing) ↔
      ∃ i region, (getRegionsInRootDir listing)[i]? = some region ∧
        call = { program := .xactserver
                 args := StartArgs.xactserverArgs (getRegionsInRootDir listing).length i
                 cwd := joinPath start.dataDir region
                 dryRun := start.dryRun || start.noXactserver } := by
  rw [xactservers, List.mem_filter, mem_calls, StartArgs.startAllRegions, List.mem_append,
    decide_eq_true_eq]
  constructor
  · rintro ⟨hmem | hmem, hprogram⟩
    · obtain ⟨e, -, he⟩ := List.mem_flatMap.mp hmem
      simp only [StartArgs.startNeon, StartArgs.neon, List.mem_cons, List.not_mem_nil, or_false,
        Act.run.injEq] at he
      rcases he with rfl | rfl <;> exact absurd hprogram (by simp)
    · obtain ⟨⟨⟨region, dir⟩, i⟩, he, hcall⟩ := List.mem_map.mp hmem
      rw [List.mem_zipIdx_iff_getElem?, StartArgs.regionsAndDirs, List.getElem?_map,
        Option.map_eq_some_iff] at he
      obtain ⟨r, hr, heq⟩ := he
      obtain ⟨rfl, rfl⟩ := Prod.mk.inj heq
      refine ⟨i, r, hr, ?_⟩
      rw [StartArgs.startXactserver, Act.run.injEq] at hcall
      rw [← hcall, StartArgs.regionsAndDirs, List.length_map]
  · rintro ⟨i, region, hregion, rfl⟩
    refine ⟨Or.inr (List.mem_map.mpr ⟨((region, joinPath start.dataDir region), i), ?_, ?_⟩), rfl⟩
    · rw [List.mem_zipIdx_iff_getElem?, StartArgs.regionsAndDirs, List.getElem?_map, hregion]
      rfl
    · rw [StartArgs.startXactserver, StartArgs.regionsAndDirs, List.length_map]

theorem comma_not_mem_nodeAddress : ',' ∉ (StartArgs.nodeAddress i).toList := by
  change ',' ∉ ("http://localhost:" ++ Nat.repr (23000 + i)).toList
  rw [String.toList_append, List.mem_append, not_or]
  refine ⟨by decide, fun hmem => ?_⟩
  exact absurd (isDigit_of_mem_repr hmem) (by decide)

/-- The nodes are read as they were written. -/
theorem addresses_nodes (h : 0 < count) :
    addresses (",".intercalate ((List.range count).map StartArgs.nodeAddress)) =
      (List.range count).map StartArgs.nodeAddress := by
  have hne : (List.range count).map StartArgs.nodeAddress ≠ [] := by
    rw [ne_eq, List.map_eq_nil_iff, List.range_eq_nil]
    omega
  have hfree : ∀ w ∈ (List.range count).map StartArgs.nodeAddress, ',' ∉ w.toList := by
    intro w hw
    obtain ⟨i, -, rfl⟩ := List.mem_map.mp hw
    exact comma_not_mem_nodeAddress
  have hsplit := splitOn_join (c := ',') hne
  rw [pieces_of_free hfree] at hsplit
  refine (congrArg (List.map String.ofList) hsplit).trans ?_
  rw [List.map_map]
  exact (List.map_congr_left fun w _ => String.ofList_toList).trans (List.map_id _)

/-- The xactserver at the position `i` of the regions has the number `i`. -/
theorem hasNumber (hi : i < count) (hcall : call.args = StartArgs.xactserverArgs count i) :
    call.HasNumber i (toString (55432 + 2 * i)) := by
  refine ⟨by rw [hcall]; rfl, by rw [hcall]; rfl, _, _, by rw [hcall]; rfl, by rw [hcall]; rfl, ?_⟩
  rw [addresses_nodes (by omega), List.getElem?_map, List.getElem?_range hi]
  rfl

theorem Call.HasNumber.eq {m n : Nat} {port : String} (hn : call.HasNumber n port)
    (hcall : call.args = StartArgs.xactserverArgs count m) : m = n := by
  have hnode := hn.nodeId
  rw [hcall] at hnode
  exact Codec.toString_injective (Option.some.inj hnode)

/-! ## The numbers of the regions -/

/-- At most nine regions are listed in the order of their numbers. -/
theorem regions_eq_of_le (hdirs : (dirNames listing).Perm args.regionNames)
    (h : args.numRegions ≤ 9) : getRegionsInRootDir listing = args.regionNames := by
  have hsorted : args.regionNames.Pairwise (· < ·) := pairwise_numbered _ (by omega)
  have hmap : (sortBy id (dirNames listing)).map id = args.regionNames :=
    (map_sortBy_eq_iff hsorted).mpr (by rwa [List.map_id])
  rwa [List.map_id] at hmap

/-- In the directory of a region runs the xactserver with the number that the region has among the
sorted names. -/
theorem exists_position (hdata : start.dataDir = args.dataDir)
    (hdirs : (dirNames listing).Perm args.regionNames) {n : Nat}
    (hcall : call ∈ xactservers (start.startAllRegions listing))
    (hcwd : call.cwd = args.regionDir (numbered args.regionPrefix n)) :
    ∃ i, (getRegionsInRootDir listing)[i]? = some (numbered args.regionPrefix n) ∧
      call.args = StartArgs.xactserverArgs (getRegionsInRootDir listing).length i := by
  obtain ⟨i, region, hregion, rfl⟩ := mem_xactservers.mp hcall
  have hmem : region ∈ args.regionNames := by
    rw [← hdirs.mem_iff]
    exact mem_sortBy.mp (List.mem_of_getElem? hregion)
  obtain ⟨m, -, rfl⟩ := List.mem_map.mp hmem
  rw [hdata] at hcwd
  obtain rfl := joinPath_numbered_injective args.dataDir args.regionPrefix hcwd
  exact ⟨i, hregion, rfl⟩

/-- A region that keeps its number is found at this position among the sorted names. -/
theorem listed_of_keepsNumber (hdata : start.dataDir = args.dataDir)
    (hdirs : (dirNames listing).Perm args.regionNames) {n : Nat}
    (h : KeepsNumber created (start.startAllRegions listing)
      (args.regionDir (numbered args.regionPrefix n)) n) :
    (getRegionsInRootDir listing)[n]? = some (numbered args.regionPrefix n) := by
  obtain ⟨call, hcall, hcwd⟩ := h.running
  obtain ⟨i, hi, hargs⟩ := exists_position hdata hdirs hcall hcwd
  obtain rfl := (h.numbered call hcall hcwd).eq hargs
  exact hi

/-- With ten regions or more, the second and the tenth are not both listed in their places. -/
theorem not_keepsNumber (hdata : start.dataDir = args.dataDir)
    (hdirs : (dirNames listing).Perm args.regionNames) :
    ¬ (KeepsNumber created (start.startAllRegions listing)
        (args.regionDir (numbered args.regionPrefix 2)) 2 ∧
      KeepsNumber created (start.startAllRegions listing)
        (args.regionDir (numbered args.regionPrefix 10)) 10) := by
  rintro ⟨htwo, hten⟩
  have hle : numbered args.regionPrefix 2 ≤ numbered args.regionPrefix 10 :=
    key_le_of_lt id (show 2 < 10 by omega) (listed_of_keepsNumber hdata hdirs htwo)
      (listed_of_keepsNumber hdata hdirs hten)
  exact absurd numbered_ten_lt_two (not_lt_of_ge hle)

/-- A region that is listed at the position of its number keeps it. -/
theorem keepsNumber_of_regions_eq (hcreate : args.doCommand = .ok created)
    (hdata : start.dataDir = args.dataDir) (hdirs : (dirNames listing).Perm args.regionNames)
    (hregions : getRegionsInRootDir listing = args.regionNames) {n : Nat} (hn : 1 ≤ n)
    (hle : (n : Int) ≤ args.numRegions) :
    KeepsNumber created (start.startAllRegions listing)
      (args.regionDir (numbered args.regionPrefix n)) n := by
  have hplace : (getRegionsInRootDir listing)[n]? = some (numbered args.regionPrefix n) := by
    rw [hregions]
    exact getElem?_regionNames.mpr ⟨hle, rfl⟩
  constructor
  · exact exists_endpoint hcreate (mem_otherRegions.mpr ⟨hn, hle, rfl⟩)
  · refine ⟨_, mem_xactservers.mpr ⟨n, _, hplace, rfl⟩, ?_⟩
    rw [hdata]
    rfl
  · intro call hcall hcwd
    obtain ⟨i, hi, hargs⟩ := exists_position hdata hdirs hcall hcwd
    rw [hregions] at hi
    obtain rfl : n = i := numbered_injective args.regionPrefix (getElem?_regionNames.mp hi).2
    refine hasNumber ?_ hargs
    obtain ⟨hlt, -⟩ := List.getElem?_eq_some_iff.mp hplace
    exact hlt

/-- **The numbers of a local cluster.** After `create`, `start` gives every region the numbers it was
created with if and only if there are at most nine regions besides the global one. -/
theorem start_keeps_numbers_iff (hcreate : args.doCommand = .ok created)
    (hdata : start.dataDir = args.dataDir) (hdirs : (dirNames listing).Perm args.regionNames) :
    (∀ i : Nat, 1 ≤ i → (i : Int) ≤ args.numRegions →
        KeepsNumber created (start.startAllRegions listing)
          (args.regionDir (numbered args.regionPrefix i)) i) ↔
      args.numRegions ≤ 9 := by
  constructor
  · intro hkeep
    by_contra hmany
    exact not_keepsNumber hdata hdirs ⟨hkeep 2 (by omega) (by omega), hkeep 10 (by omega) (by omega)⟩
  · intro hfew i hi hle
    exact keepsNumber_of_regions_eq hcreate hdata hdirs (regions_eq_of_le hdirs hfew) hi hle

/-- `create data --num-regions 10`. -/
def createTen : CreateArgs :=
  { dataDir := "data", dryRun := false, numRegions := 10, pgVersion := "14", regionPrefix := "r"
    keepNeon := false, pageserverConfig := [], tenantConfig := [] }

/-- `start data`. -/
def startData : StartArgs :=
  { dataDir := "data", dryRun := false, noXactserver := false, pgVersion := "14", valgrind := false
    valgrindSupp := "tools/valgrind.supp" }

/-- The directories of the regions, the last one listed first. -/
def listed (args : CreateArgs) : List DirEntry :=
  args.regionNames.reverse.map fun name => ⟨name, true⟩

theorem dirNames_listed (args : CreateArgs) : (dirNames (listed args)).Perm args.regionNames := by
  have hnames : dirNames (listed args) = args.regionNames.reverse := by
    rw [dirNames, listed, List.filter_map, List.map_map]
    simp [Function.comp_def]
  rw [hnames]
  exact List.reverse_perm args.regionNames

theorem start_keeps_numbers_iff_three :
    ∃ created, { createTen with numRegions := 3 }.doCommand = .ok created ∧
      KeepsNumber created (startData.startAllRegions (listed { createTen with numRegions := 3 }))
        "data/r3" 3 :=
  ⟨_, rfl, (start_keeps_numbers_iff rfl rfl (dirNames_listed _)).mpr (by decide) 3 (by decide)
    (by decide)⟩

/-- Of ten regions, the tenth is started with the numbers of the second. -/
theorem tenth_region_misnumbered :
    ∃ created, createTen.doCommand = .ok created ∧
      (dirNames (listed createTen)).Perm createTen.regionNames ∧
      (∃ call ∈ xactservers (startData.startAllRegions (listed createTen)),
        call.cwd = "data/r10" ∧ optionValue "--node-id" call.args = some "2" ∧
          optionValue "--connect-pg" call.args =
            some "postgresql://cloud_admin@localhost:55436/postgres") ∧
      ¬ KeepsNumber created (startData.startAllRegions (listed createTen)) "data/r10" 10 := by
  have hcall : ∃ call ∈ xactservers (startData.startAllRegions (listed createTen)),
      call.cwd = "data/r10" ∧ optionValue "--node-id" call.args = some "2" ∧
        optionValue "--connect-pg" call.args =
          some "postgresql://cloud_admin@localhost:55436/postgres" := by
    decide +kernel
  refine ⟨_, rfl, dirNames_listed createTen, hcall, fun hkeep => ?_⟩
  obtain ⟨call, hmem, hcwd, hnode, -⟩ := hcall
  have hnode' := (hkeep.numbered call hmem hcwd).nodeId
  rw [hnode] at hnode'
  exact absurd hnode' (by decide)

end Neonctl

end Sunstorm
