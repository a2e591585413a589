import Sunstorm.Codec.Proofs.DecimalProofs
import Sunstorm.Dict.Proofs.DictProofs
import Sunstorm.Sorting.Proofs.SortingProofs
import Sunstorm.Tools.Deployment

/-!
# Proofs: which number a region gets

Deployment and loading number the namespaces by their places among the sorted ids; execution takes
the id itself. With the global namespace at the place 0, the two are the same if and only if the ids
of the regions are 1, 2 and so on.
-/

namespace Sunstorm

open Sorting

variable {config : MainConfig} {ns : Namespace} {args : OperationArgs} {name : String}

/-! ## The settings -/

theorem settingValue_append (key : String) (l l' : List String) :
    settingValue key (l ++ l') = (settingValue key l').or (settingValue key l) := by
  induction l with
  | nil => simp [settingValue]
  | cons setting l ih =>
    rw [List.cons_append, settingValue, settingValue, ih, Option.or_assoc]

theorem namespaceId_append (l l' : List String) :
    namespaceId (l ++ l') = (namespaceId l').or (namespaceId l) := settingValue_append _ l l'

theorem namespaceId_cons (setting : String) (l : List String) :
    namespaceId (setting :: l) = (namespaceId l).or (ownValue "namespace_id" setting) := rfl

theorem namespaceId_singleton (setting : String) :
    namespaceId [setting] = ownValue "namespace_id" setting := rfl

theorem namespaceId_number (number : String) :
    namespaceId ["namespace_id=" ++ number] = some number := by
  have hkey : "namespace_id".toList ++ ['='] = "namespace_id=".toList := rfl
  have hlen : "namespace_id".length + 1 = "namespace_id=".toList.length := rfl
  rw [namespaceId_singleton, ownValue, String.toList_append, hkey,
    if_pos (List.isPrefixOf_iff_prefix.mpr (List.prefix_append _ _)), hlen, List.drop_left,
    String.ofList_toList]

/-- A setting of another key does not change the value of a key. -/
theorem ownValue_of_ne {key key' : String} (hne : key ≠ key') (hkey : '=' ∉ key.toList)
    (hkey' : '=' ∉ key'.toList) (value : String) : ownValue key (key' ++ "=" ++ value) = none := by
  refine if_neg fun hprefix => ?_
  obtain ⟨rest, hrest⟩ := List.isPrefixOf_iff_prefix.mp hprefix
  have heq : "=".toList = ['='] := rfl
  rw [String.toList_append, String.toList_append, heq, List.append_assoc, List.append_assoc,
    List.singleton_append, List.singleton_append] at hrest
  have hfree : ∀ text : String, '=' ∉ text.toList → ∀ c ∈ text.toList, (c != '=') = true := by
    intro text htext c hc
    rw [bne_iff_ne]
    exact ne_of_mem_of_not_mem hc htext
  have hkeys := Codec.append_cons_inj (· != '=') (by decide) (hfree key hkey) (hfree key' hkey') hrest
  exact hne (String.toList_injective hkeys.1)

section OtherKeys

variable {key : String} (hne : "namespace_id" ≠ key) (hkey : '=' ∉ key.toList)

include hne hkey

theorem namespaceId_optionalSetting (value : Option String) :
    namespaceId (optionalSetting key value) = none := by
  cases value with
  | none => rfl
  | some value =>
    rw [optionalSetting]
    split_ifs
    · rfl
    · exact ownValue_of_ne hne (by decide) hkey value

theorem namespaceId_nonzeroSetting (value : Int) :
    namespaceId (nonzeroSetting key value) = none := by
  rw [nonzeroSetting]
  split_ifs
  · rfl
  · exact ownValue_of_ne hne (by decide) hkey (toString value)

end OtherKeys

/-- The settings of a namespace that is loaded hold its place. -/
theorem namespaceId_loadSettings (i : Nat) (info : NamespaceInfo) :
    namespaceId (Load.perRegionSettings i info) = some (toString i) := by
  rw [Load.perRegionSettings, namespaceId_append,
    namespaceId_optionalSetting (by decide) (by decide), namespaceId_cons, namespaceId_cons,
    namespaceId_number]
  rfl

/-- The settings of a namespace that is executed hold its id. -/
theorem namespaceId_executeSettings (timestamp : String) (info : NamespaceInfo) :
    namespaceId (Execute.perRegionSettings timestamp info) = some (toString info.id) := by
  rw [Execute.perRegionSettings, namespaceId_append, namespaceId_append, namespaceId_append,
    namespaceId_nonzeroSetting (by decide) (by decide),
    namespaceId_nonzeroSetting (by decide) (by decide),
    namespaceId_optionalSetting (by decide) (by decide), namespaceId_cons, namespaceId_cons,
    namespaceId_number]
  rfl

/-! ## The three numbers -/

theorem perm_sortedNamespaces : config.sortedNamespaces.Perm config.getNamespaces.entries :=
  sortBy_perm

theorem nodup_orderedNamespaces : config.orderedNamespaces.Nodup :=
  (perm_sortedNamespaces.map Prod.fst).nodup_iff.mpr config.getNamespaces.nodup

theorem idxOf_of_getElem? {i : Nat} (h : config.sortedNamespaces[i]? = some ns) :
    config.orderedNamespaces.idxOf ns.1 = i := by
  obtain ⟨hi, rfl⟩ := List.getElem?_eq_some_iff.mp h
  have hplace := nodup_orderedNamespaces.idxOf_getElem i (by simpa [MainConfig.orderedNamespaces])
  simpa [MainConfig.orderedNamespaces] using hplace

/-- The places of the namespaces are their indices among the ordered names. -/
theorem getElem?_sortedNamespaces {i : Nat} :
    config.sortedNamespaces[i]? = some ns ↔
      ns ∈ config.getNamespaces.entries ∧ config.orderedNamespaces.idxOf ns.1 = i := by
  rw [← perm_sortedNamespaces.mem_iff, List.mem_iff_getElem?]
  constructor
  · intro h
    exact ⟨⟨i, h⟩, idxOf_of_getElem? h⟩
  · rintro ⟨⟨j, hj⟩, hi⟩
    rwa [← hi, idxOf_of_getElem? hj]

/-- Deployment installs every namespace. -/
theorem install_mem_deployNeon {region : String} {sets : List String} :
    .install name region sets ∈ config.deployNeon false ↔
      ∃ ns ∈ config.getNamespaces.entries,
        config.deployNeonOneNamespace ns = .install name region sets := by
  rw [MainConfig.deployNeon, List.mem_append, List.mem_map, if_neg Bool.false_ne_true, List.mem_map]
  constructor
  · rintro (⟨ns, -, h⟩ | h)
    · exact absurd h (by simp)
    · exact h
  · exact Or.inr

/-- A namespace is deployed with its place as its number. -/
theorem namespaceId_deploy {region : String} {sets : List String}
    (h : .install name region sets ∈ config.deployNeon false) :
    namespaceId sets = some (toString (config.orderedNamespaces.idxOf name)) := by
  obtain ⟨ns, -, heq⟩ := install_mem_deployNeon.mp h
  obtain ⟨rfl, -, rfl⟩ := HelmCall.install.inj heq
  rw [namespaceId_append, namespaceId_cons, namespaceId_number]
  rfl

theorem namespaceId_benchmark {namespaces : List Namespace} {own : List String} {number : String}
    (h : namespaceId own = some number) :
    namespaceId (args.benchmark namespaces ns own).sets = some number := by
  rw [OperationArgs.benchmark, namespaceId_append, h]
  rfl

/-- A namespace is loaded with its place as its number. -/
theorem namespaceId_load {run : BenchmarkRun} (h : run ∈ Load.run config args) :
    namespaceId run.sets = some (toString (config.orderedNamespaces.idxOf run.ns)) := by
  unfold Load.run Load.benchmarks at h
  split_ifs at h
  · exact absurd h List.not_mem_nil
  · obtain ⟨⟨ns, i⟩, hmem, rfl⟩ := List.mem_map.mp h
    have hplace := List.mem_zipIdx_iff_getElem?.mp (List.mem_filter.mp hmem).1
    have hrun : (args.benchmark config.sortedNamespaces ns (Load.perRegionSettings i ns.2)).ns =
      ns.1 := rfl
    rw [hrun, idxOf_of_getElem? hplace]
    exact namespaceId_benchmark (namespaceId_loadSettings i ns.2)

/-- A namespace is executed with its id as its number. -/
theorem namespaceId_execute {timestamp : String} {runs : List BenchmarkRun} {run : BenchmarkRun}
    (h : Execute.run config args timestamp = .ok runs) (hrun : run ∈ runs) :
    ∃ ns ∈ config.getNamespaces.entries, run.ns = ns.1 ∧
      namespaceId run.sets = some (toString ns.2.id) := by
  unfold Execute.run Execute.benchmarks at h
  dsimp only at h
  split_ifs at h
  · obtain rfl := Except.ok.inj h
    exact absurd hrun List.not_mem_nil
  · obtain rfl := Except.ok.inj h
    obtain ⟨ns, hmem, rfl⟩ := List.mem_map.mp hrun
    have hns := (List.mem_filter.mp (List.mem_filter.mp hmem).1).1
    exact ⟨ns, perm_sortedNamespaces.mem_iff.mp hns, rfl,
      namespaceId_benchmark (namespaceId_executeSettings timestamp ns.2)⟩

/-- Without a filter, every namespace but the global one is executed. -/
theorem exists_execute (hns : ns ∈ config.getNamespaces.entries) (hglobal : ns.1 ≠ "global") :
    ∃ args runs, Execute.run config args "" = .ok runs ∧
      ∃ run ∈ runs, run.ns = ns.1 ∧ namespaceId run.sets = some (toString ns.2.id) := by
  let args : OperationArgs := { set := [], regions := [], dryRun := false, logsOnly := false }
  have hmem : ns ∈ Execute.namespacesWithoutGlobal args config.sortedNamespaces := by
    refine List.mem_filter.mpr ⟨perm_sortedNamespaces.mem_iff.mpr hns, ?_⟩
    simp [args, OperationArgs.skips, hglobal]
  refine ⟨args, _, if_neg (List.ne_nil_of_mem hmem), _,
    List.mem_map.mpr ⟨ns, List.mem_filter.mpr ⟨hmem, rfl⟩, rfl⟩, rfl,
    namespaceId_benchmark (namespaceId_executeSettings "" ns.2)⟩

/-- So the numbers are the same if and only if the id is the place. -/
theorem numberedAlike_iff (hns : ns ∈ config.getNamespaces.entries) (hglobal : ns.1 ≠ "global") :
    NumberedAlike config ns.1 ↔
      toString (config.orderedNamespaces.idxOf ns.1) = toString ns.2.id := by
  constructor
  · rintro ⟨number, hdeploy, -, hexecute⟩
    have hinstall := install_mem_deployNeon.mpr ⟨ns, hns, rfl⟩
    have hplace := (namespaceId_deploy hinstall).symm.trans (hdeploy _ _ hinstall)
    obtain ⟨args, runs, hruns, run, hrun, hname, hid⟩ := exists_execute hns hglobal
    have hnumber := hid.symm.trans (hexecute args "" runs hruns run hrun hname)
    rw [Option.some.inj hplace, Option.some.inj hnumber]
  · intro heq
    refine ⟨toString (config.orderedNamespaces.idxOf ns.1), ?_, ?_, ?_⟩
    · intro region sets h
      exact namespaceId_deploy h
    · intro args run hrun hname
      rw [← hname]
      exact namespaceId_load hrun
    · intro args timestamp runs hruns run hrun hname
      obtain ⟨ns', hns', hname', hid⟩ := namespaceId_execute hruns hrun
      have hsame : ns' = ns :=
        List.inj_on_of_nodup_map config.getNamespaces.nodup hns' hns (hname'.symm.trans hname)
      rw [hid, heq, hsame]

/-! ## Places and ids -/

/-- The namespaces are those of the regions, and the global one unless a region has its name. -/
theorem mem_getNamespaces :
    ns ∈ config.getNamespaces.entries ↔
      (∃ e ∈ config.regionDict.entries, MainConfig.regionNamespace e = ns) ∨
        ns = ("global", config.globalNamespace) ∧ "global" ∉ config.regionDict.keys := by
  have hkeys : (config.regionDict.entries.map MainConfig.regionNamespace).map Prod.fst =
      config.regionDict.keys := by
    rw [List.map_map]
    rfl
  rw [MainConfig.getNamespaces, Dict.mem_entries_setAll (by rw [hkeys]; exact config.regionDict.nodup),
    Dict.mem_entries_set, hkeys, List.mem_map]
  refine or_congr_right ?_
  constructor
  · rintro ⟨rfl | ⟨h, -⟩, hnot⟩
    · exact ⟨rfl, hnot⟩
    · exact absurd h List.not_mem_nil
  · rintro ⟨rfl, hnot⟩
    exact ⟨Or.inl rfl, hnot⟩

theorem regionNamespace_mem {e : String × RegionInfo} (h : e ∈ config.regionDict.entries) :
    MainConfig.regionNamespace e ∈ config.getNamespaces.entries :=
  mem_getNamespaces.mpr (Or.inl ⟨e, h, rfl⟩)

theorem nodup_getNamespaces : config.getNamespaces.entries.Nodup :=
  config.getNamespaces.nodup.of_map Prod.fst

/-- If no region is called `global`, the ids are 0 and those of the regions. -/
theorem ids_perm (hglobal : "global" ∉ config.regionDict.keys) :
    (config.getNamespaces.entries.map fun ns => ns.2.id).Perm (0 :: config.regionIds) := by
  have hnodup : (("global", config.globalNamespace) ::
      config.regionDict.entries.map MainConfig.regionNamespace).Nodup := by
    have hkeys : ("global" :: config.regionDict.keys).Nodup :=
      List.nodup_cons.mpr ⟨hglobal, config.regionDict.nodup⟩
    refine List.Nodup.of_map Prod.fst ?_
    rwa [List.map_cons, List.map_map]
  have hperm : config.getNamespaces.entries.Perm
      (("global", config.globalNamespace) ::
        config.regionDict.entries.map MainConfig.regionNamespace) := by
    refine (List.perm_ext_iff_of_nodup nodup_getNamespaces hnodup).mpr fun ns => ?_
    rw [mem_getNamespaces, List.mem_cons, List.mem_map, or_comm, and_iff_left hglobal]
  have hids := hperm.map fun ns => ns.2.id
  rwa [List.map_cons, List.map_map] at hids

section Positive

variable (hpos : ∀ id ∈ config.regionIds, 0 < id)

include hpos

/-- A namespace whose id is not positive is the global one. -/
theorem global_of_id_nonpos (hns : ns ∈ config.getNamespaces.entries) (hid : ns.2.id ≤ 0) :
    ns.1 = "global" := by
  rcases mem_getNamespaces.mp hns with ⟨e, he, rfl⟩ | ⟨rfl, -⟩
  · have hlt : 0 < e.2.id := hpos e.2.id (List.mem_map.mpr ⟨e, he, rfl⟩)
    exact absurd hid (not_le_of_gt hlt)
  · rfl

/-- If no region is called `global`, the global namespace has the place 0. -/
theorem placedById_iff (hglobal : "global" ∉ config.regionDict.keys) :
    PlacedById config ↔
      ∀ (i : Nat) (ns : Namespace), config.sortedNamespaces[i]? = some ns → ns.2.id = i := by
  constructor
  · intro hplaced i ns hi
    obtain ⟨hns, hplace⟩ := getElem?_sortedNamespaces.mp hi
    by_cases hname : ns.1 = "global"
    · have hid : ns.2.id = 0 := by
        rcases mem_getNamespaces.mp hns with ⟨e, he, rfl⟩ | ⟨rfl, -⟩
        · exact absurd (List.mem_map.mpr ⟨e, he, hname⟩) hglobal
        · rfl
      rcases Nat.eq_zero_or_pos i with rfl | hi0
      · exact hid
      · -- the first namespace has no greater id, so it is the global one as well
        obtain ⟨hlt, -⟩ := List.getElem?_eq_some_iff.mp hi
        have hfirst : config.sortedNamespaces[0]? = some config.sortedNamespaces[0] :=
          List.getElem?_eq_getElem (by omega)
        have hle := key_le_of_lt (fun ns : Namespace => ns.2.id) hi0 hfirst hi
        obtain ⟨hns', hplace'⟩ := getElem?_sortedNamespaces.mp hfirst
        have hname' := global_of_id_nonpos hpos hns' (hle.trans_eq hid)
        rw [hname', ← hname, hplace] at hplace'
        omega
    · rw [← hplaced ns hns hname, hplace]
  · intro h ns hns _
    exact (h _ ns (getElem?_sortedNamespaces.mpr ⟨hns, rfl⟩)).symm

/-- If no region is called `global`, the ids are the places if and only if those of the regions are 1,
2 and so on. -/
theorem placedById_iff_perm (hglobal : "global" ∉ config.regionDict.keys) :
    PlacedById config ↔
      config.regionIds.Perm ((List.range config.regionIds.length).map fun i : Nat => (i : Int) + 1) := by
  have hids := ids_perm hglobal
  have hlen : config.getNamespaces.entries.length = config.regionIds.length + 1 := by
    simpa using hids.length_eq
  have hplaces : (List.range (config.regionIds.length + 1)).map (fun i : Nat => (i : Int)) =
      0 :: (List.range config.regionIds.length).map fun i : Nat => (i : Int) + 1 := by
    rw [List.range_succ_eq_map, List.map_cons, List.map_map]
    rfl
  have hmono : StrictMono fun i : Nat => (i : Int) := fun _ _ h => Int.ofNat_lt.mpr h
  rw [placedById_iff hpos hglobal, MainConfig.sortedNamespaces, key_eq_place_iff hmono, hlen,
    hplaces]
  constructor
  · intro h
    exact (hids.symm.trans h).cons_inv
  · intro h
    exact hids.trans (h.cons 0)

/-- If a region is called `global`, no namespace has the id 0, so nothing but this region can be at
the places 0 and 1. -/
theorem eq_global_of_placedById (hdistinct : config.regionIds.Nodup)
    (hglobal : "global" ∈ config.regionDict.keys) (hplaced : PlacedById config)
    (hns : ns ∈ config.getNamespaces.entries) : ns.1 = "global" := by
  have hregion : ∀ ns ∈ config.getNamespaces.entries,
      ∃ e ∈ config.regionDict.entries, MainConfig.regionNamespace e = ns := by
    intro ns hns
    rcases mem_getNamespaces.mp hns with h | ⟨-, hnot⟩
    · exact h
    · exact absurd hglobal hnot
  have hpositive : ∀ ns ∈ config.getNamespaces.entries, 0 < ns.2.id := by
    intro ns hns
    obtain ⟨e, he, rfl⟩ := hregion ns hns
    exact hpos e.2.id (List.mem_map.mpr ⟨e, he, rfl⟩)
  by_contra hname
  -- `ns` is at the place of its id, so there are places 0 and 1
  obtain ⟨hlt, -⟩ := List.getElem?_eq_some_iff.mp (getElem?_sortedNamespaces.mpr ⟨hns, rfl⟩)
  have hid := hplaced ns hns hname
  have hid0 := hpositive ns hns
  have hfirst : config.sortedNamespaces[0]? = some config.sortedNamespaces[0] :=
    List.getElem?_eq_getElem (by omega)
  have hsecond : config.sortedNamespaces[1]? = some config.sortedNamespaces[1] :=
    List.getElem?_eq_getElem (by omega)
  obtain ⟨hmem, hplace⟩ := getElem?_sortedNamespaces.mp hfirst
  obtain ⟨hmem', hplace'⟩ := getElem?_sortedNamespaces.mp hsecond
  have hname0 : config.sortedNamespaces[0].1 = "global" := by
    by_contra hne
    have hzero := hplaced _ hmem hne
    have hpos0 := hpositive _ hmem
    omega
  have hname1 : config.sortedNamespaces[1].1 ≠ "global" := by
    intro heq
    rw [heq, ← hname0, hplace] at hplace'
    exact absurd hplace' (by omega)
  -- the second has the id 1, and the first one no greater id
  have hone := hplaced _ hmem' hname1
  have hle := key_le_of_lt (fun ns : Namespace => ns.2.id) Nat.zero_lt_one hfirst hsecond
  have hpos0 := hpositive _ hmem
  have hsame : config.sortedNamespaces[0].2.id = config.sortedNamespaces[1].2.id := by omega
  obtain ⟨e, he, heq⟩ := hregion _ hmem
  obtain ⟨e', he', heq'⟩ := hregion _ hmem'
  rw [← heq, ← heq'] at hsame
  obtain rfl : e = e' := List.inj_on_of_nodup_map hdistinct he he' hsame
  rw [← heq', heq] at hname1
  exact hname1 hname0

end Positive

theorem placedById_iff_only (hdistinct : config.regionIds.Nodup)
    (hpos : ∀ id ∈ config.regionIds, 0 < id) (hglobal : "global" ∈ config.regionDict.keys) :
    PlacedById config ↔ config.regionDict.keys = ["global"] := by
  constructor
  · intro hplaced
    have hall : ∀ name, name ∈ config.regionDict.keys ↔ name ∈ ["global"] := by
      intro name
      rw [List.mem_singleton]
      constructor
      · intro hname
        obtain ⟨e, he, rfl⟩ := List.mem_map.mp hname
        exact eq_global_of_placedById hpos hdistinct hglobal hplaced (regionNamespace_mem he)
      · rintro rfl
        exact hglobal
    have hperm := (List.perm_ext_iff_of_nodup config.regionDict.nodup (List.nodup_singleton _)).mpr
      hall
    exact List.perm_singleton.mp hperm
  · intro honly ns hns hname
    rcases mem_getNamespaces.mp hns with ⟨e, he, rfl⟩ | ⟨-, hnot⟩
    · have hkey : e.1 ∈ config.regionDict.keys := List.mem_map.mpr ⟨e, he, rfl⟩
      rw [honly, List.mem_singleton] at hkey
      exact absurd hkey hname
    · exact absurd hglobal hnot

/-- The numbers are the same for all namespaces if and only if the ids are the places. -/
theorem numberedAlike_iff_placedById (hpos : ∀ id ∈ config.regionIds, 0 < id) :
    (∀ name ∈ config.getNamespaces.keys, name ≠ "global" → NumberedAlike config name) ↔
      PlacedById config := by
  have hnumber : ∀ ns ∈ config.getNamespaces.entries, ns.1 ≠ "global" →
      (NumberedAlike config ns.1 ↔ (config.orderedNamespaces.idxOf ns.1 : Int) = ns.2.id) := by
    intro ns hns hname
    have hid : 0 ≤ ns.2.id := by
      by_contra hneg
      exact hname (global_of_id_nonpos hpos hns (by omega))
    obtain ⟨n, hn⟩ := Int.eq_ofNat_of_zero_le hid
    have htext : toString (n : Int) = toString n := rfl
    rw [numberedAlike_iff hns hname, hn, htext, Codec.toString_injective.eq_iff, Int.ofNat_inj]
  constructor
  · intro h ns hns hname
    exact (hnumber ns hns hname).mp (h ns.1 (List.mem_map.mpr ⟨ns, hns, rfl⟩) hname)
  · intro h name hmem hname
    obtain ⟨ns, hns, rfl⟩ := List.mem_map.mp hmem
    exact (hnumber ns hns hname).mpr (h ns hns hname)

/-- **The numbers of the regions.** For distinct positive ids, deployment, loading and execution give
every namespace but the global one the same number if and only if the ids are 1, 2 and so on. -/
theorem regions_numbered_alike_iff (hdistinct : config.regionIds.Nodup)
    (hpos : ∀ id ∈ config.regionIds, 0 < id) :
    (∀ name ∈ config.getNamespaces.keys, name ≠ "global" → NumberedAlike config name) ↔
      config.Consecutive := by
  rw [numberedAlike_iff_placedById hpos, MainConfig.Consecutive]
  by_cases hglobal : "global" ∈ config.regionDict.keys
  · rw [placedById_iff_only hdistinct hpos hglobal]
    exact ⟨Or.inl, fun h => h.resolve_right fun h' => h'.1 hglobal⟩
  · rw [placedById_iff_perm hpos hglobal]
    constructor
    · intro h
      exact Or.inr ⟨hglobal, h⟩
    · rintro (h | ⟨-, h⟩)
      · rw [h] at hglobal
        exact absurd (List.mem_singleton.mpr rfl) hglobal
      · exact h

/-- Two regions, with one benchmark instance each. -/
def twoRegions (region region' : String) (id id' : Int) (h : [region, region'].Nodup) : MainConfig :=
  { globalRegion := "us-east-1", globalRegionTargetAddressAndDatabase := none
    regions := some
      { entries := [(region, ⟨id, none, none, some 1⟩), (region', ⟨id', none, none, some 1⟩)]
        nodup := h } }

/-- The regions with the ids 2 and 1. -/
def swapped : MainConfig := twoRegions "us-east-2" "us-east-1" 2 1 (by decide)

theorem regions_numbered_alike_iff_swapped : NumberedAlike swapped "us-east-2" := by
  have hdistinct : swapped.regionIds.Nodup := by decide
  have hpos : ∀ id ∈ swapped.regionIds, 0 < id := by decide
  have hconsecutive : swapped.Consecutive := Or.inr ⟨by decide, by decide⟩
  exact (regions_numbered_alike_iff hdistinct hpos).mpr hconsecutive "us-east-2" (by decide) (by decide)

/-- The regions with the ids 1 and 3, where the one with the id 2 is commented out. -/
def commentedOut : MainConfig := twoRegions "us-east-1" "us-west-1" 1 3 (by decide)

/-- The second region is deployed and loaded as number 2, and executed as number 3. -/
theorem execute_misnumbers_region :
    (∃ sets, .install "us-west-1" "us-west-1" sets ∈ commentedOut.deployNeon false ∧
      namespaceId sets = some "2") ∧
    (∃ run ∈ Load.run commentedOut ⟨[], [], false, false⟩,
      run.ns = "us-west-1" ∧ namespaceId run.sets = some "2") ∧
    (∃ runs, Execute.run commentedOut ⟨[], [], false, false⟩ "" = .ok runs ∧
      ∃ run ∈ runs, run.ns = "us-west-1" ∧ namespaceId run.sets = some "3") ∧
    ¬ NumberedAlike commentedOut "us-west-1" := by
  have hmem : ("us-west-1", (⟨"us-west-1", 3, none, 0, 1⟩ : NamespaceInfo)) ∈
      commentedOut.getNamespaces.entries := by
    decide
  have hplace : commentedOut.orderedNamespaces.idxOf "us-west-1" = 2 := by decide +kernel
  have hinstall := install_mem_deployNeon.mpr ⟨_, hmem, rfl⟩
  refine ⟨⟨_, hinstall, ?_⟩, by decide +kernel, ⟨_, rfl, by decide +kernel⟩, ?_⟩
  · rw [namespaceId_deploy hinstall, hplace]
    rfl
  · rw [numberedAlike_iff hmem (by decide), hplace]
    decide

end Sunstorm
