import TextureGraph.Proofs.Graph.Order

/-!
# The length of the longest chain

`Graph.depth_of_schedule_ok`: the depth that `Graph.schedule` yields is the number of modules on the
longest chain, in which each module reads the next (`Graph.IsReadingChain`).

The walk numbers the modules that it is done with.  The numbers fall along every chain, so no chain
is longer than the number of its first module (`Ranking.length_le`).  On the other hand a module gets
the number next to the largest one among its sources, so some chain is as long as its number says
(`Settled.exists_chain`).
-/

namespace TextureGraph.Graph

variable {M α : Type} {g : Graph M α}

/-! ### Chains -/

/-- Modules of the graph, each of which reads the next. -/
structure IsReadingChain (g : Graph M α) (chain : List ModuleId) : Prop where
  /-- Each module reads the next. -/
  reads : chain.IsChain g.Reads
  /-- The modules are in the graph. -/
  present : ∀ id ∈ chain, id ∈ g.ids

namespace IsReadingChain

theorem nil (g : Graph M α) : g.IsReadingChain [] :=
  ⟨.nil, by simp⟩

theorem singleton {id : ModuleId} (h : id ∈ g.ids) : g.IsReadingChain [id] :=
  ⟨.singleton id, by simpa using h⟩

theorem cons {id next : ModuleId} {rest : List ModuleId} (h : g.IsReadingChain (next :: rest))
    (hreads : g.Reads id next) : g.IsReadingChain (id :: next :: rest) := by
  refine ⟨.cons_cons hreads h.reads, fun x hx => ?_⟩
  rcases List.mem_cons.mp hx with rfl | hx
  · exact mem_ids_of_reads hreads
  · exact h.present x hx

/-- A chain stays one in a graph with all of its modules and bindings. -/
theorem mono {g' : Graph M α} {chain : List ModuleId} (h : g.IsReadingChain chain)
    (hids : ∀ id ∈ g.ids, id ∈ g'.ids)
    (hreads : ∀ reader source, g.Reads reader source → g'.Reads reader source) :
    g'.IsReadingChain chain :=
  ⟨h.reads.imp hreads, fun id hid => hids id (h.present id hid)⟩

end IsReadingChain

/-! ### No chain is longer -/

/-- A chain has no more modules than the number of its first one. -/
theorem Ranking.length_le_rank {rank : ModuleId → Nat} {bound : Nat} (hr : g.Ranking rank bound)
    {id : ModuleId} {rest : List ModuleId} (h : g.IsReadingChain (id :: rest)) :
    (id :: rest).length ≤ rank id := by
  induction rest generalizing id with
  | nil => exact hr.pos id (h.present id (.head _))
  | cons next rest ih =>
    obtain ⟨hreads, hrest⟩ := List.isChain_cons_cons.mp h.reads
    have htail : g.IsReadingChain (next :: rest) := ⟨hrest, fun x hx => h.present x (.tail _ hx)⟩
    have hlt : rank next < rank id := by
      refine hr.falls id (h.present id (.head _)) next ?_
      exact mem_sources_iff.mpr ⟨hreads, htail.present next (.head _)⟩
    have hle : (next :: rest).length ≤ rank next := ih htail
    rw [List.length_cons]
    omega

theorem Ranking.length_le {rank : ModuleId → Nat} {bound : Nat} (hr : g.Ranking rank bound)
    {chain : List ModuleId} (h : g.IsReadingChain chain) : chain.length ≤ bound := by
  cases chain with
  | nil => exact Nat.zero_le bound
  | cons id rest => exact (hr.length_le_rank h).trans (hr.le id (h.present id (.head _)))

/-- No chain has more modules than the depth of the schedule. -/
theorem IsReadingChain.length_le_depth {s : Schedule} (hs : g.schedule = .ok s)
    {chain : List ModuleId} (h : g.IsReadingChain chain) : chain.length ≤ s.depth := by
  obtain ⟨rank, hr⟩ := exists_ranking hs
  exact hr.length_le h

/-! ### Some chain is as long -/

/-- The largest one of some numbers is one of them, unless there are none. -/
theorem foldl_max_mem {l : List Nat} (h : l ≠ []) : l.foldl max 0 ∈ l := by
  obtain ⟨n, hn⟩ := Option.isSome_iff_exists.mp (List.isSome_max?_iff.mpr h)
  rw [List.foldl_max, hn, Option.getD_some, Nat.zero_max]
  exact List.max?_mem hn

/-- From a module that is listed a chain starts with as many modules as its number says. -/
theorem Settled.exists_chain {visited : Visited} (h : g.Settled visited) {id : ModuleId}
    {depth : Nat} (hid : (id, depth) ∈ visited) :
    ∃ rest, g.IsReadingChain (id :: rest) ∧ (id :: rest).length = depth := by
  induction h generalizing id depth with
  | nil => cases hid
  | @snoc visited last settled present new listed ih =>
    rcases List.mem_append.mp hid with hold | hlast
    · exact ih hold
    · cases List.mem_singleton.mp hlast
      by_cases hnone : g.sources last = []
      · refine ⟨[], .singleton present, ?_⟩
        rw [hnone]
        rfl
      · -- The chain goes on with the source of the largest number.
        obtain ⟨source, hsource, hlargest⟩ :=
          List.mem_map.mp (foldl_max_mem (mt List.map_eq_nil_iff.mp hnone))
        obtain ⟨d, hd⟩ := listed source hsource
        obtain ⟨before, after, hvisited, -⟩ := List.lookup_eq_some_iff.mp hd
        have hmem : (source, d) ∈ visited := by
          rw [hvisited]
          exact List.mem_append_right _ (.head _)
        obtain ⟨rest, hchain, hlength⟩ := ih hmem
        refine ⟨source :: rest, hchain.cons (mem_sources_iff.mp hsource).1, ?_⟩
        rw [← hlargest, depthIn, hd, Option.getD_some, ← hlength, List.length_cons]

/-- Some chain has as many modules as the depth of the schedule says. -/
theorem exists_chain_of_schedule_ok {s : Schedule} (h : g.schedule = .ok s) :
    ∃ chain, g.IsReadingChain chain ∧ chain.length = s.depth := by
  obtain ⟨visited, hsettled, -, rfl⟩ := schedule_ok h
  by_cases hnone : visited = []
  · subst hnone
    exact ⟨[], .nil g, rfl⟩
  · have hlisted : visited.map (·.2) ≠ [] := mt List.map_eq_nil_iff.mp hnone
    obtain ⟨⟨id, depth⟩, hmem, hlargest⟩ := List.mem_map.mp (foldl_max_mem hlisted)
    obtain ⟨rest, hchain, hlength⟩ := hsettled.exists_chain hmem
    exact ⟨id :: rest, hchain, hlength.trans hlargest⟩

/-! ### The depth -/

/-- **The depth is the length of the longest chain**: when there is an order of evaluation, some chain
of modules, each of which reads the next, has as many modules as the depth says, and no chain has
more.  Only a graph without modules has depth zero. -/
theorem depth_of_schedule_ok {s : Schedule} (h : g.schedule = .ok s) :
    (∃ chain, g.IsReadingChain chain ∧ chain.length = s.depth) ∧
      (∀ chain, g.IsReadingChain chain → chain.length ≤ s.depth) ∧
      (s.depth = 0 ↔ g.ids = []) := by
  obtain ⟨chain, hchain, hlength⟩ := exists_chain_of_schedule_ok h
  refine ⟨⟨chain, hchain, hlength⟩, fun _ hother => hother.length_le_depth h, fun hzero => ?_,
    fun hempty => ?_⟩
  · refine List.eq_nil_iff_forall_not_mem.mpr fun id hid => ?_
    have hone : [id].length ≤ s.depth := (IsReadingChain.singleton hid).length_le_depth h
    rw [hzero] at hone
    cases hone
  · have hnone : chain = [] := List.eq_nil_iff_forall_not_mem.mpr fun id hid => by
      have hmem := hchain.present id hid
      rw [hempty] at hmem
      cases hmem
    rw [← hlength, hnone, List.length_nil]

theorem depth_of_schedule_ok_shared :
    shared.schedule = .ok ⟨[⟨2⟩, ⟨1⟩, ⟨0⟩], 3⟩ ∧
      (∃ chain, shared.IsReadingChain chain ∧ chain.length = 3) ∧
      ∀ chain, shared.IsReadingChain chain → chain.length ≤ 3 := by
  obtain ⟨-, hschedule⟩ := freeze_ok freeze_shared
  obtain ⟨hlongest, hle, -⟩ := depth_of_schedule_ok hschedule
  exact ⟨hschedule, hlongest, hle⟩

end TextureGraph.Graph
