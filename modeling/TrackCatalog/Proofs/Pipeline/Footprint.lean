import TrackCatalog.Proofs.Emit.Frame
import TrackCatalog.Proofs.Files.Replacement
import TrackCatalog.Proofs.Pipeline.Layouts

/-!
# What a run touches

A run that cannot assemble its catalog leaves the tree as it was. One that can changes no file but
those of its output, whether it gets to its end or not, and a single file that cannot be written
stays as it was.

* `PipelineConfig.territory`: the files of an output.
* `PipelineConfig.run_touches_only_its_output`: the account of every run.
-/

namespace TrackCatalog.PipelineConfig

variable {c : PipelineConfig} {order : ListingOrder} {t : FileTree} {x : Assembled}
  {e : CatalogError}

/-- The destination of a single file; the alias table and the blobs of a sharded output. -/
def territory (c : PipelineConfig) : Territory :=
  match c.output.layout with
  | .single => .ofPath c.destination
  | .sharded => .shards c.destination

theorem spares_emit (order : ListingOrder) (c : PipelineConfig) (k : Catalog) (t : FileTree) :
    FileTree.Spares c.territory t ((c.emit order k).run t).tree := by
  unfold emit territory
  cases c.output.layout with
  | single => exact spares_writeCatalog k c.destination t
  | sharded => exact spares_writeSharded order k c.destination t

theorem tree_run_of_assemble (h : (c.assembler.assemble t).result = .ok x) :
    ((c.run order).run t).tree = ((c.emit order x.catalog).run t).tree := by
  rw [run, Task.run_bind, Task.run_look]
  simp only [h]
  exact Task.tree_bind_pure _ _ _

/-- After the catalog is assembled nothing but writing it can fail. -/
theorem emit_eq_error_of_run (h : (c.assembler.assemble t).result = .ok x)
    (he : ((c.run order).run t).result = .error e) :
    ((c.emit order x.catalog).run t).result = .error e := by
  rw [run, Task.run_bind, Task.run_look] at he
  simp only [h, Task.run_bind] at he
  cases hr : ((c.emit order x.catalog).run t).result with
  | error e' =>
    rw [hr] at he
    cases he
    rfl
  | ok s =>
    rw [hr] at he
    simp only [Task.run_pure, reduceCtorEq] at he

theorem spares_run (order : ListingOrder) (c : PipelineConfig) (t : FileTree) :
    FileTree.Spares c.territory t ((c.run order).run t).tree := by
  cases hr : (c.assembler.assemble t).result with
  | error e =>
    rw [(run_of_assemble_eq_error hr).2]
    exact .refl _ t
  | ok x =>
    rw [tree_run_of_assemble hr]
    exact spares_emit order c x.catalog t

/-- **What a run touches.** When the catalog cannot be assembled, the run ends with that error in
the tree it began with. When a single file cannot be written, each file is as before, that at the
destination too. In any case the files outside the output are as before and no directory is gone.
This holds also when each file is prepared beside its place and then moved there: the steps have the
same answer, and leave nothing behind. -/
theorem run_touches_only_its_output (order : ListingOrder) (c : PipelineConfig) (t : FileTree) :
    (∀ e, (c.assembler.assemble t).result = .error e →
      ((c.run order).run t).result = .error e ∧ ((c.run order).run t).tree = t) ∧
    (∀ x e, c.output.layout = .single → (c.assembler.assemble t).result = .ok x →
      ((c.run order).run t).result = .error e →
      ∀ m bytes, ((c.run order).run t).tree.IsFile m bytes ↔ t.IsFile m bytes) ∧
    FileTree.Spares c.territory t ((c.run order).run t).tree ∧
    ∀ (u : FileTree) temp path bytes, u.IsFresh temp path →
      u.EndsAlike (u.replaceFile path bytes) (u.replaceInSteps temp path bytes) := by
  refine ⟨?_, ?_, spares_run order c t, ?_⟩
  · intro e he
    exact run_of_assemble_eq_error he
  · intro x e hl hx he m bytes
    have hemit := emit_eq_error_of_run hx he
    rw [tree_run_of_assemble hx]
    unfold emit at hemit ⊢
    rw [hl] at hemit ⊢
    exact (spares_of_writeCatalog_error hemit).isFile m id bytes
  · intro u temp path bytes hfresh
    exact FileTree.replaceInSteps_agrees hfresh bytes

namespace Both

/-- A directory stands where the single file is to go. -/
def blocked : FileTree := (Assembler.Repeated.tree.createDirs "out/catalog.bin").1

/-- Without its sources the run leaves the empty tree. Where a directory stands in the way it leaves
the source that it read, and a prepared file would be taken away again. -/
theorem failed_runs_leave_files :
    ((single.run .stored).run .empty).tree = .empty ∧
      (∃ e, ((single.run .stored).run blocked).result = .error e) ∧
      (∀ bytes, ((single.run .stored).run blocked).tree.IsFile ["tracks"] bytes ↔
        blocked.IsFile ["tracks"] bytes) ∧
      blocked.EndsAlike (blocked.replaceFile "out/catalog.bin" [42])
        (blocked.replaceInSteps ".tmp0a1B2c" "out/catalog.bin" [42]) := by
  have hnone : (single.assembler.assemble .empty).result = .error (.sourceNotFound "tracks") := by
    decide +kernel
  have hx : (single.assembler.assemble blocked).result = .ok Assembler.Repeated.assembled := by
    decide +kernel
  have he : ((single.run .stored).run blocked).result =
      .error (.file "out/catalog.bin" .isADirectory) := by
    decide +kernel
  have hfresh : blocked.IsFresh ".tmp0a1B2c" "out/catalog.bin" := by
    refine ⟨by decide +kernel, by decide +kernel, by decide +kernel, fun d hd => ?_⟩
    have hout : blocked.directory (FileTree.workDir "out/catalog.bin") = .ok ["out"] := by decide +kernel
    rw [hout] at hd
    cases hd
    decide +kernel
  obtain ⟨hfailed, -⟩ := run_touches_only_its_output .stored single .empty
  obtain ⟨-, hrefused, -, hsteps⟩ := run_touches_only_its_output .stored single blocked
  have hkept := hrefused _ _ rfl hx he
  exact ⟨(hfailed _ hnone).2, ⟨_, he⟩, hkept ["tracks"], hsteps _ _ _ _ hfresh⟩

end Both

end TrackCatalog.PipelineConfig
