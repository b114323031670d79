import TextureGraph.Graph.Error

/-!
# The order of evaluation

`Graph.schedule` walks the modules along the bindings, sources before readers, and yields them in
that order together with the length of the longest chain of modules reading each other.  When the
walk comes back to a module it is still on the way to, the modules since then form a cycle.
-/

namespace TextureGraph

/-- The modules of a graph without cycles. -/
structure Schedule where
  /-- Every module, after the modules that it reads. -/
  order : List ModuleId
  /-- The number of modules on the longest chain. -/
  depth : Nat
deriving DecidableEq, Repr

namespace Graph

variable {M α : Type}

/-- The modules that a walk is done with, in order, each with the number of modules on the longest
chain that ends at it. -/
abbrev Visited : Type :=
  List (ModuleId × Nat)

/-- The modules of the graph that a module reads, in the order of its inputs. -/
def sources (g : Graph M α) (id : ModuleId) : List ModuleId :=
  (g.dependencies id).filter g.contains

/-- The modules of the graph that do not lie on a path. -/
def offPath (g : Graph M α) (path : List ModuleId) : List ModuleId :=
  g.ids.filter fun id => !path.contains id

/-- A module that reads another one is in the graph. -/
theorem mem_ids_of_mem_dependencies {g : Graph M α} {id source : ModuleId}
    (h : source ∈ g.dependencies id) : id ∈ g.ids := by
  cases he : g.entry? id with
  | none => simp [dependencies, he] at h
  | some e =>
    obtain ⟨before, after, hentries, -⟩ := List.lookup_eq_some_iff.mp he
    simp [ids, hentries]

/-- A path that goes on to a new module leaves fewer modules aside. -/
theorem length_offPath_append_lt {g : Graph M α} {path : List ModuleId} {id : ModuleId}
    (hid : id ∈ g.ids) (hpath : ¬ path.contains id) :
    (g.offPath (path ++ [id])).length < (g.offPath path).length := by
  have h : g.offPath (path ++ [id]) = (g.offPath path).filter (· != id) := by
    simp only [offPath, List.filter_filter]
    congr 1
    funext other
    by_cases hother : other = id <;> simp [hother]
  rw [h, List.length_filter_lt_length_iff_exists]
  refine ⟨id, ?_, by simp⟩
  simpa [offPath, hid] using hpath

/-- Visits a module after the modules that it reads, and yields the length of the longest chain that
ends at it.  `path` leads from the start of the walk to this visit; a module on it that is met again
closes a cycle, which is the error.

Every further visit takes place on a longer path, which leaves fewer modules of the graph aside, so
the walk comes to an end also in a graph with cycles. -/
def visit (g : Graph M α) (path : List ModuleId) (id : ModuleId) (visited : Visited) :
    Except (List ModuleId) (Nat × Visited) :=
  match visited.lookup id with
  | some depth => .ok (depth, visited)
  | none =>
    if path.contains id then .error (path.dropWhile (· != id) ++ [id])
    else do
      let (depth, visited) ← (g.sources id).attach.foldlM
        (fun (depth, visited) source => do
          let (d, visited) ← g.visit (path ++ [id]) source visited
          return (max depth d, visited))
        (0, visited)
      return (depth + 1, visited ++ [(id, depth + 1)])
termination_by (g.offPath path).length
decreasing_by
  have hsource := (List.mem_filter.mp source.property).1
  exact length_offPath_append_lt (mem_ids_of_mem_dependencies hsource) ‹_›

/-- Visits all modules in the order in which they were added. -/
def visitAll (g : Graph M α) : Except (List ModuleId) Visited :=
  g.ids.foldlM (fun visited id => (g.visit [] id visited).map (·.2)) []

/-- The order of evaluation, or a cycle. -/
def schedule (g : Graph M α) : Except (GraphError α) Schedule :=
  match g.visitAll with
  | .error chain => .error (.cycle chain)
  | .ok visited =>
    .ok { order := visited.map (·.1), depth := (visited.map (·.2)).foldl max 0 }

end Graph

end TextureGraph
