import TextureGraph.Graph.Schedule
import TextureGraph.Proofs.Graph.Basic
import TextureGraph.Proofs.Outcome
import Mathlib.Data.List.Chain
import Mathlib.Data.List.Fold
import Mathlib.Data.List.MinMax

/-!
# Correctness of `Graph.schedule`

`exists_schedule_iff_acyclic`: a graph has an order of evaluation iff no module reaches itself along
the bindings, and otherwise `schedule` reports a cycle.  The two halves rest on two invariants of the
walk:

* `visit_ok`: a visit that succeeds only adds modules that are off its path, and it leaves the list
  of visited modules *settled* (`Settled`): every module comes after the modules that it reads, with
  a larger number (`Settled.lookup_of_mem_sources`).  Along a chain of bindings the numbers fall
  (`Ranking`), so no chain leads back to its start.
* `visit_error`: the path of a visit is a chain of modules that read each other.  A module that is
  met again closes it to a cycle (`IsCycle`).
-/

namespace TextureGraph.Graph

variable {M α : Type} {g : Graph M α}

theorem mem_sources_iff {reader source : ModuleId} :
    source ∈ g.sources reader ↔ g.Reads reader source ∧ source ∈ g.ids := by
  rw [sources, List.mem_filter, mem_dependencies_iff, contains_iff]

theorem mem_ids_of_reads {reader source : ModuleId} (h : g.Reads reader source) : reader ∈ g.ids :=
  mem_ids_of_mem_dependencies (mem_dependencies_iff.mpr h)

/-! ### One visit -/

/-- Visits modules one after another at the end of a path.  `depth` is raised to the length of the
longest chain that ends at one of them. -/
def visitEach (g : Graph M α) (path : List ModuleId) :
    List ModuleId → Nat → Visited → Except (List ModuleId) (Nat × Visited)
  | [], depth, visited => .ok (depth, visited)
  | source :: rest, depth, visited => do
    let (d, visited) ← g.visit path source visited
    g.visitEach path rest (max depth d) visited

theorem foldlM_visit_eq {P : ModuleId → Prop} (path : List ModuleId) (sources : List (Subtype P))
    (depth : Nat) (visited : Visited) :
    sources.foldlM
        (fun (depth, visited) source => do
          let (d, visited) ← g.visit path source.1 visited
          return (max depth d, visited))
        (depth, visited)
      = g.visitEach path (sources.map Subtype.val) depth visited := by
  induction sources generalizing depth visited with
  | nil => rfl
  | cons source rest ih =>
    simp only [List.foldlM_cons, List.map_cons, visitEach, bind_assoc, pure_bind]
    exact bind_congr fun r => ih _ _

theorem visit_of_lookup {path : List ModuleId} {id : ModuleId} {visited : Visited} {depth : Nat}
    (h : visited.lookup id = some depth) : g.visit path id visited = .ok (depth, visited) := by
  rw [visit, h]

theorem visit_of_mem {path : List ModuleId} {id : ModuleId} {visited : Visited}
    (hnew : visited.lookup id = none) (hpath : id ∈ path) :
    g.visit path id visited = .error (path.dropWhile (· != id) ++ [id]) := by
  rw [visit, hnew]
  simp only [List.contains_iff_mem, hpath, if_true]

theorem visit_of_new {path : List ModuleId} {id : ModuleId} {visited : Visited}
    (hnew : visited.lookup id = none) (hpath : id ∉ path) :
    g.visit path id visited = do
      let (depth, visited) ← g.visitEach (path ++ [id]) (g.sources id) 0 visited
      return (depth + 1, visited ++ [(id, depth + 1)]) := by
  rw [visit, hnew]
  simp only [List.contains_iff_mem, hpath, if_false]
  rw [foldlM_visit_eq, List.attach_map_subtype_val]

/-- Facts about a visit are proved along the walk: for a new module they may be assumed of the visits
of its sources. -/
theorem visit_induction (g : Graph M α) {motive : List ModuleId → ModuleId → Visited → Prop}
    (lookup : ∀ path id visited depth, visited.lookup id = some depth → motive path id visited)
    (mem : ∀ path id visited, visited.lookup id = none → id ∈ path → motive path id visited)
    (new : ∀ path id visited, visited.lookup id = none → id ∉ path →
      (∀ source ∈ g.sources id, ∀ visited, motive (path ++ [id]) source visited) →
      motive path id visited)
    (path : List ModuleId) (id : ModuleId) (visited : Visited) : motive path id visited := by
  induction path, id, visited using visit.induct g with
  | case1 path id visited depth h => exact lookup path id visited depth h
  | case2 path id visited hnew hpath => exact mem path id visited hnew (by simpa using hpath)
  | case3 path id visited hnew hpath ih =>
    exact new path id visited hnew (by simpa using hpath) fun source hsource => ih ⟨source, hsource⟩

/-! ### Visits that succeed -/

/-- The number at which a module is listed; zero for a module that is not. -/
def depthIn (visited : Visited) (id : ModuleId) : Nat :=
  (visited.lookup id).getD 0

/-- Lists of visited modules in which every module comes once, after the modules that it reads, with
the number next to the largest one of theirs. -/
inductive Settled (g : Graph M α) : Visited → Prop where
  /-- Nothing has been visited. -/
  | nil : Settled g []
  /-- A module is added whose sources are all listed. -/
  | snoc {visited : Visited} {id : ModuleId} (settled : Settled g visited) (present : id ∈ g.ids)
      (new : visited.lookup id = none)
      (listed : ∀ source ∈ g.sources id, ∃ d, visited.lookup source = some d) :
      Settled g
        (visited ++ [(id, ((g.sources id).map (depthIn visited)).foldl max 0 + 1)])

/-- The list goes on with modules that are off a path. -/
def ExtendsOff (path : List ModuleId) (visited visited' : Visited) : Prop :=
  ∃ added, visited' = visited ++ added ∧ ∀ x ∈ added, x.1 ∉ path

namespace ExtendsOff

variable {path : List ModuleId} {visited visited' visited'' : Visited}

theorem refl (path : List ModuleId) (visited : Visited) : ExtendsOff path visited visited :=
  ⟨[], by simp, by simp⟩

theorem trans (h : ExtendsOff path visited visited') (h' : ExtendsOff path visited' visited'') :
    ExtendsOff path visited visited'' := by
  obtain ⟨added, rfl, hadded⟩ := h
  obtain ⟨added', rfl, hadded'⟩ := h'
  refine ⟨added ++ added', by simp, fun x hx => ?_⟩
  rcases List.mem_append.mp hx with hx | hx
  · exact hadded x hx
  · exact hadded' x hx

theorem lookup_some {id : ModuleId} {depth : Nat} (h : ExtendsOff path visited visited')
    (hid : visited.lookup id = some depth) : visited'.lookup id = some depth := by
  obtain ⟨added, rfl, -⟩ := h
  rw [List.lookup_append, hid, Option.some_or]

theorem lookup_none {id : ModuleId} (h : ExtendsOff path visited visited')
    (hid : visited.lookup id = none) (hpath : id ∈ path) : visited'.lookup id = none := by
  obtain ⟨added, rfl, hadded⟩ := h
  rw [List.lookup_append, hid, Option.none_or, List.lookup_eq_none_iff]
  intro x hx
  rw [bne_iff_ne]
  rintro rfl
  exact hadded x hx hpath

end ExtendsOff

/-- What a visit that succeeds leaves behind. -/
structure VisitedWell (g : Graph M α) (path : List ModuleId) (id : ModuleId) (visited : Visited)
    (depth : Nat) (visited' : Visited) : Prop where
  /-- The list is settled again. -/
  settled : g.Settled visited'
  /-- The module is listed. -/
  lookup : visited'.lookup id = some depth
  /-- Nothing on the path has been listed. -/
  extendsOff : ExtendsOff path visited visited'

/-- Visits of several modules that succeed list all of them, and the resulting number is the largest
one among theirs. -/
theorem visitEach_ok {path sources : List ModuleId}
    (hvisit : ∀ source ∈ sources, ∀ visited depth visited', g.Settled visited →
      g.visit path source visited = .ok (depth, visited') →
      VisitedWell g path source visited depth visited')
    {start depth : Nat} {visited visited' : Visited} (hsettled : g.Settled visited)
    (h : g.visitEach path sources start visited = .ok (depth, visited')) :
    g.Settled visited' ∧ ExtendsOff path visited visited' ∧
      (∀ source ∈ sources, ∃ d, visited'.lookup source = some d) ∧
      depth = (sources.map (depthIn visited')).foldl max start := by
  induction sources generalizing start visited with
  | nil =>
    cases h
    exact ⟨hsettled, .refl _ _, by simp, rfl⟩
  | cons source rest ih =>
    rw [visitEach, bind_eq_ok_iff] at h
    obtain ⟨⟨d, between⟩, hfirst, hrest⟩ := h
    have hwell := hvisit source List.mem_cons_self visited d between hsettled hfirst
    -- What the first visit has listed is still listed after the others.
    obtain ⟨hs, hext, hlisted, hdepth⟩ :=
      ih (fun s hs => hvisit s (List.mem_cons_of_mem _ hs)) hwell.settled hrest
    have hd : visited'.lookup source = some d := hext.lookup_some hwell.lookup
    refine ⟨hs, hwell.extendsOff.trans hext, ?_, ?_⟩
    · intro s hs
      rcases List.mem_cons.mp hs with rfl | hs
      · exact ⟨d, hd⟩
      · exact hlisted s hs
    · rw [hdepth, List.map_cons, List.foldl_cons, depthIn, hd, Option.getD_some]

/-- **Success**: a visit that succeeds settles the list again. -/
theorem visit_ok {path : List ModuleId} {id : ModuleId} {visited visited' : Visited} {depth : Nat}
    (hid : id ∈ g.ids) (hsettled : g.Settled visited)
    (h : g.visit path id visited = .ok (depth, visited')) :
    VisitedWell g path id visited depth visited' := by
  induction path, id, visited using visit_induction g generalizing depth visited' with
  | lookup path id visited d hlookup =>
    rw [visit_of_lookup hlookup] at h
    cases h
    exact ⟨hsettled, hlookup, .refl _ _⟩
  | mem path id visited hnew hpath =>
    rw [visit_of_mem hnew hpath] at h
    cases h
  | new path id visited hnew hpath ih =>
    rw [visit_of_new hnew hpath, bind_eq_ok_iff] at h
    obtain ⟨⟨d, between⟩, heach, hdone⟩ := h
    cases hdone
    obtain ⟨hs, hext, hlisted, hdepth⟩ := visitEach_ok
      (fun source hsource visited depth visited' hs hv =>
        ih source hsource visited (mem_sources_iff.mp hsource).2 hs hv) hsettled heach
    -- The visits of the sources go along a path with `id` on it, so they have not listed `id`.
    have hstill : between.lookup id = none := hext.lookup_none hnew (by simp)
    refine ⟨?_, ?_, ?_⟩
    · rw [hdepth]
      exact hs.snoc hid hstill hlisted
    · rw [List.lookup_append, hstill, Option.none_or, List.lookup_cons_self]
    · obtain ⟨added, rfl, hadded⟩ := hext
      refine ⟨added ++ [(id, d + 1)], by simp, fun x hx => ?_⟩
      rcases List.mem_append.mp hx with hx | hx
      · exact fun hmem => hadded x hx (List.mem_append_left _ hmem)
      · rw [List.mem_singleton.mp hx]
        exact hpath

/-! ### Visits that fail -/

/-- A chain of modules of the graph, each of which reads the next, that leads back to where it
starts and meets no other module twice. -/
structure IsCycle (g : Graph M α) (chain : List ModuleId) : Prop where
  /-- Each module reads the next. -/
  reads : chain.IsChain g.Reads
  /-- The last module is the first one, and only this one is met twice. -/
  closes : ∃ first rest, chain = first :: rest ++ [first] ∧ (first :: rest).Nodup
  /-- The modules are in the graph. -/
  present : ∀ id ∈ chain, id ∈ g.ids

/-- A path that has met its end before holds a cycle. -/
theorem isCycle_of_mem {path : List ModuleId} {id : ModuleId} (hnodup : path.Nodup)
    (hreads : (path ++ [id]).IsChain g.Reads) (hpresent : ∀ x ∈ path ++ [id], x ∈ g.ids)
    (hmem : id ∈ path) : g.IsCycle (path.dropWhile (· != id) ++ [id]) := by
  obtain ⟨before, after, rfl, hbefore⟩ := List.eq_append_cons_of_mem hmem
  -- The cycle begins where the module was met first.
  have hdrop : (before ++ id :: after).dropWhile (· != id) = id :: after := by
    rw [List.dropWhile_append_of_pos fun x hx => by
      rw [bne_iff_ne]
      rintro rfl
      exact hbefore hx]
    exact List.dropWhile_cons_of_neg (by simp)
  rw [hdrop]
  have hsuffix : id :: after ++ [id] <:+ before ++ id :: after ++ [id] :=
    ⟨before, by simp⟩
  refine ⟨hreads.suffix hsuffix, ⟨id, after, rfl, ?_⟩, fun x hx => hpresent x ?_⟩
  · exact hnodup.sublist (List.suffix_append before _).sublist
  · exact hsuffix.subset hx

/-- Visits of several modules fail with the failure of one of them. -/
theorem visitEach_error {path sources : List ModuleId} {start : Nat} {visited : Visited}
    {chain : List ModuleId} (h : g.visitEach path sources start visited = .error chain) :
    ∃ source ∈ sources, ∃ visited, g.visit path source visited = .error chain := by
  induction sources generalizing start visited with
  | nil => cases h
  | cons source rest ih =>
    rw [visitEach, bind_eq_error_iff] at h
    rcases h with hfirst | ⟨⟨d, between⟩, -, hrest⟩
    · exact ⟨source, List.mem_cons_self, visited, hfirst⟩
    · obtain ⟨s, hs, hvisit⟩ := ih hrest
      exact ⟨s, List.mem_cons_of_mem _ hs, hvisit⟩

/-- **Failure**: along a path of modules that read each other, a visit that fails reports a cycle. -/
theorem visit_error {path : List ModuleId} {id : ModuleId} {visited : Visited}
    {chain : List ModuleId} (hnodup : path.Nodup) (hreads : (path ++ [id]).IsChain g.Reads)
    (hpresent : ∀ x ∈ path ++ [id], x ∈ g.ids) (h : g.visit path id visited = .error chain) :
    g.IsCycle chain := by
  induction path, id, visited using visit_induction g with
  | lookup path id visited d hlookup =>
    rw [visit_of_lookup hlookup] at h
    cases h
  | mem path id visited hnew hpath =>
    rw [visit_of_mem hnew hpath] at h
    cases h
    exact isCycle_of_mem hnodup hreads hpresent hpath
  | new path id visited hnew hpath ih =>
    rw [visit_of_new hnew hpath, bind_eq_error_iff] at h
    rcases h with heach | ⟨_, _, hdone⟩
    · obtain ⟨source, hsource, visited, hvisit⟩ := visitEach_error heach
      obtain ⟨hread, hmem⟩ := mem_sources_iff.mp hsource
      -- The path goes on as a chain: its last module reads the source that is visited next.
      refine ih source hsource visited ?_ ?_ ?_ hvisit
      · exact List.nodup_append.mpr ⟨hnodup, by simp, by
          rintro x hx y hy rfl
          exact hpath (List.mem_singleton.mp hy ▸ hx)⟩
      · exact hreads.append (List.isChain_singleton _) (by simpa using hread)
      · intro x hx
        rcases List.mem_append.mp hx with hx | hx
        · exact hpresent x hx
        · rwa [List.mem_singleton.mp hx]
    · cases hdone

/-- A cycle leads from a module back to itself. -/
theorem IsCycle.not_acyclic {chain : List ModuleId} (h : g.IsCycle chain) : ¬ g.Acyclic := by
  obtain ⟨first, rest, rfl, -⟩ := h.closes
  have hchain : (first :: rest ++ [first]).IsChain (Relation.TransGen g.Reads) :=
    h.reads.imp fun _ _ => .single
  intro hacyclic
  exact hacyclic first (hchain.rel_cons (by simp))

/-! ### The walk over the whole graph -/

theorem foldlM_visitAll_eq (ids : List ModuleId) (depth : Nat) (visited : Visited) :
    ids.foldlM (fun visited id => (g.visit [] id visited).map (·.2)) visited
      = (g.visitEach [] ids depth visited).map (·.2) := by
  induction ids generalizing depth visited with
  | nil => rfl
  | cons id rest ih =>
    rw [List.foldlM_cons, visitEach]
    cases g.visit [] id visited with
    | error chain => rfl
    | ok r => exact ih _ _

theorem visitAll_eq (g : Graph M α) : g.visitAll = (g.visitEach [] g.ids 0 []).map (·.2) :=
  foldlM_visitAll_eq ..

/-- A walk that succeeds settles a list of all modules. -/
theorem visitAll_ok {visited : Visited} (h : g.visitAll = .ok visited) :
    g.Settled visited ∧ ∀ id ∈ g.ids, ∃ d, visited.lookup id = some d := by
  rw [visitAll_eq] at h
  cases heach : g.visitEach [] g.ids 0 [] with
  | error chain =>
    rw [heach] at h
    cases h
  | ok r =>
    rw [heach] at h
    cases h
    obtain ⟨hs, -, hlisted, -⟩ := visitEach_ok
      (fun id hid visited depth visited' hs hv => visit_ok hid hs hv) .nil heach
    exact ⟨hs, hlisted⟩

/-- A walk that fails reports a cycle. -/
theorem visitAll_error {chain : List ModuleId} (h : g.visitAll = .error chain) :
    g.IsCycle chain := by
  rw [visitAll_eq] at h
  cases heach : g.visitEach [] g.ids 0 [] with
  | ok r =>
    rw [heach] at h
    cases h
  | error chain' =>
    rw [heach] at h
    cases h
    obtain ⟨id, hid, visited, hvisit⟩ := visitEach_error heach
    exact visit_error List.nodup_nil (List.isChain_singleton _) (by simpa using hid) hvisit

/-! ### Numbers fall along the bindings -/

theorem le_foldl_max {l : List Nat} {n : Nat} (start : Nat) (h : n ∈ l) : n ≤ l.foldl max start := by
  rw [List.foldl_eq_foldr]
  exact List.le_max_of_le' start h le_rfl

/-- In a settled list, the modules that a module reads are listed with smaller numbers. -/
theorem Settled.lookup_of_mem_sources {visited : Visited} {id source : ModuleId} {depth : Nat}
    (hs : g.Settled visited) (hid : visited.lookup id = some depth)
    (hsource : source ∈ g.sources id) : ∃ d, visited.lookup source = some d ∧ d < depth := by
  induction hs with
  | nil => cases hid
  | snoc hs hpresent hnew hlisted ih =>
    rcases lookup_snoc_eq_some_iff.mp hid with hold | ⟨-, rfl, rfl⟩
    · obtain ⟨d, hd, hlt⟩ := ih hold
      exact ⟨d, lookup_snoc_eq_some_iff.mpr (.inl hd), hlt⟩
    · obtain ⟨d, hd⟩ := hlisted source hsource
      refine ⟨d, lookup_snoc_eq_some_iff.mpr (.inl hd), Nat.lt_succ_of_le (le_foldl_max 0 ?_)⟩
      exact List.mem_map.mpr ⟨source, hsource, by rw [depthIn, hd, Option.getD_some]⟩

theorem Settled.depth_pos {visited : Visited} {id : ModuleId} {depth : Nat}
    (hs : g.Settled visited) (h : visited.lookup id = some depth) : 0 < depth := by
  induction hs with
  | nil => cases h
  | snoc hs hpresent hnew hlisted ih =>
    rcases lookup_snoc_eq_some_iff.mp h with hold | ⟨-, -, rfl⟩
    · exact ih hold
    · exact Nat.succ_pos _

/-- A numbering of the modules that falls along the bindings, from one up to a bound. -/
structure Ranking (g : Graph M α) (rank : ModuleId → Nat) (bound : Nat) : Prop where
  /-- Numbers start at one. -/
  pos : ∀ id ∈ g.ids, 0 < rank id
  /-- No number is larger than the bound. -/
  le : ∀ id ∈ g.ids, rank id ≤ bound
  /-- A module that is read has a smaller number. -/
  falls : ∀ id ∈ g.ids, ∀ source ∈ g.sources id, rank source < rank id

/-- The numbers fall along any chain of bindings in the graph. -/
theorem Ranking.lt_of_transGen {rank : ModuleId → Nat} {bound : Nat} (hr : g.Ranking rank bound)
    {reader source : ModuleId} (h : Relation.TransGen g.Reads reader source)
    (hsource : source ∈ g.ids) : rank source < rank reader := by
  have hstep : ∀ {a b}, g.Reads a b → b ∈ g.ids → rank b < rank a := fun hread hb =>
    hr.falls _ (mem_ids_of_reads hread) _ (mem_sources_iff.mpr ⟨hread, hb⟩)
  induction h using Relation.TransGen.head_induction_on with
  | single hread => exact hstep hread hsource
  | head hread hrest ih =>
    refine ih.trans (hstep hread ?_)
    obtain ⟨_, hnext, -⟩ := Relation.TransGen.head'_iff.mp hrest
    exact mem_ids_of_reads hnext

/-! ### The order of evaluation -/

theorem schedule_ok {s : Schedule} (h : g.schedule = .ok s) :
    ∃ visited, g.Settled visited ∧ (∀ id ∈ g.ids, ∃ d, visited.lookup id = some d) ∧
      s = { order := visited.map (·.1), depth := (visited.map (·.2)).foldl max 0 } := by
  unfold schedule at h
  split at h
  · cases h
  · rename_i visited hvisit
    cases h
    obtain ⟨hs, hlisted⟩ := visitAll_ok hvisit
    exact ⟨visited, hs, hlisted, rfl⟩

theorem schedule_error {e : GraphError α} (h : g.schedule = .error e) :
    ∃ chain, g.IsCycle chain ∧ e = .cycle chain := by
  unfold schedule at h
  split at h
  · rename_i chain hvisit
    cases h
    exact ⟨chain, visitAll_error hvisit, rfl⟩
  · cases h

/-- The numbers that the walk gives to the modules go up to the length of the longest chain. -/
theorem exists_ranking {s : Schedule} (h : g.schedule = .ok s) :
    ∃ rank, g.Ranking rank s.depth := by
  obtain ⟨visited, hs, hlisted, rfl⟩ := schedule_ok h
  refine ⟨depthIn visited, ?_, ?_, ?_⟩
  · intro id hid
    obtain ⟨d, hd⟩ := hlisted id hid
    rw [depthIn, hd]
    exact hs.depth_pos hd
  · intro id hid
    obtain ⟨d, hd⟩ := hlisted id hid
    obtain ⟨before, after, hvisited, -⟩ := List.lookup_eq_some_iff.mp hd
    rw [depthIn, hd, Option.getD_some]
    exact le_foldl_max 0 (List.mem_map.mpr ⟨(id, d), by simp [hvisited], rfl⟩)
  · intro id hid source hsource
    obtain ⟨d, hd⟩ := hlisted id hid
    obtain ⟨d', hd', hlt⟩ := hs.lookup_of_mem_sources hd hsource
    rwa [depthIn, depthIn, hd, hd']

theorem acyclic_of_schedule_ok {s : Schedule} (h : g.schedule = .ok s) : g.Acyclic := by
  obtain ⟨rank, hr⟩ := exists_ranking h
  intro id hcycle
  obtain ⟨_, hread, -⟩ := Relation.TransGen.head'_iff.mp hcycle
  exact lt_irrefl _ (hr.lt_of_transGen hcycle (mem_ids_of_reads hread))

/-- **A graph has an order of evaluation iff no module reaches itself**, whatever changes have led to
the graph; of every other graph a cycle is reported. -/
theorem exists_schedule_iff_acyclic (g : Graph M α) :
    ((∃ s, g.schedule = .ok s) ↔ g.Acyclic) ∧
      ((∃ chain, g.schedule = .error (.cycle chain)) ↔ ¬ g.Acyclic) := by
  cases h : g.schedule with
  | ok s =>
    have hacyclic : g.Acyclic := acyclic_of_schedule_ok h
    constructor
    · exact ⟨fun _ => hacyclic, fun _ => ⟨s, rfl⟩⟩
    · exact ⟨by rintro ⟨_, ⟨⟩⟩, fun hnot => absurd hacyclic hnot⟩
  | error e =>
    obtain ⟨chain, hcycle, rfl⟩ := schedule_error h
    constructor
    · exact ⟨by rintro ⟨_, ⟨⟩⟩, fun hacyclic => absurd hacyclic hcycle.not_acyclic⟩
    · exact ⟨fun _ => hcycle.not_acyclic, fun _ => ⟨chain, rfl⟩⟩

end TextureGraph.Graph
