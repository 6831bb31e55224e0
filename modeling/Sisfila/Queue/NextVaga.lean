import Sisfila.Framework.Lanes
import Sisfila.Queue.Estimates

namespace Sisfila

theorem Aluno.mem_vagasAPartir (a : Aluno) (f : Fila) (d : Db) (v : Vaga) :
    v ∈ a.vagasAPartir f d ↔ v ∈ d.vagas.rows ∧ v.filaId=some f.id ∧ v.alunoId=some a.id ∧
      ∃ p ∈ v.posicao,f.posicao≤p := by
  rw [Aluno.vagasAPartir,mem_orderBy,Db.vagasDe,List.mem_filter,List.mem_filter]
  simp only [Db.naFila_iff,Bool.and_eq_true,beq_iff_eq,decide_eq_true_eq,and_assoc]

theorem Aluno.mem_filasAtivas (c : Option Nat) (d : Db) (f : Fila) :
    f ∈ Aluno.filasAtivas c d ↔ f ∈ d.filas.rows ∧ f.ativo=some true ∧ f.colegiadoId=c := by
  rw [Aluno.filasAtivas,mem_orderBy,List.mem_filter]
  simp only [Bool.and_eq_true,beq_iff_eq]

/-- The vagas the aluno is still to be called for, each with its fila. -/
def Db.vagasFuturas (d : Db) (a : Aluno) : Set (Vaga × Fila) :=
  {x | x.2 ∈ d.filas.rows ∧ x.2.ativo=some true ∧ x.2.colegiadoId=d.colegiadoDe a.colegiadoId ∧
    x.1 ∈ d.vagas.rows ∧ x.1.filaId=some x.2.id ∧ x.1.alunoId=some a.id ∧
    ∃ p ∈ x.1.posicao,x.2.posicao≤p}

/-- By `prioridade` of the fila, then by `posicao`; NULL comes first. -/
def ordemDeChamada (x : Vaga × Fila) : Lex (Nullable × Nullable) :=
  toLex (nullable x.2.prioridade,nullable x.1.posicao)

/-- The search goes over lanes: the active filas, each with the vagas of the aluno. -/
theorem Db.inLanes_eq (d : Db) (a : Aluno) : inLanes (fun f => a.vagasAPartir f d)
    (Aluno.filasAtivas (d.colegiadoDe a.colegiadoId) d)=d.vagasFuturas a := by
  ext ⟨v,f⟩
  change f ∈ Aluno.filasAtivas _ d ∧ v ∈ a.vagasAPartir f d ↔ _
  rw [Aluno.mem_filasAtivas,Aluno.mem_vagasAPartir,and_assoc,and_assoc]
  rfl

theorem Db.proximaVaga_eq_none_iff (d : Db) (a : Aluno) :
    d.proximaVaga a=none ↔ d.vagasFuturas a=∅ := by
  rw [← Db.inLanes_eq]
  exact scan_eq_none_iff

/-- The aluno has a vaga at or past the pointer of an active fila of the colegiado. -/
def Db.Aguarda (d : Db) (a : Aluno) : Prop :=
  ∃ f ∈ d.filas.rows,f.ativo=some true ∧ f.colegiadoId=d.colegiadoDe a.colegiadoId ∧
    ∃ v ∈ d.vagas.rows,v.filaId=some f.id ∧ v.alunoId=some a.id ∧ ∃ p ∈ v.posicao,f.posicao≤p

theorem Db.proximaVaga_ne_none_iff (d : Db) (a : Aluno) :
    d.proximaVaga a≠none ↔ d.Aguarda a := by
  rw [Ne,Db.proximaVaga_eq_none_iff,← Ne,← Set.nonempty_iff_ne_empty]
  constructor
  · rintro ⟨⟨v,f⟩,hf,hat,hc,hv⟩
    exact ⟨f,hf,hat,hc,v,hv⟩
  · rintro ⟨f,hf,hat,hc,v,hv⟩
    exact ⟨(v,f),hf,hat,hc,hv⟩

section

variable {d : Db} (hprio : ∀ f ∈ d.filas.rows,∀ g ∈ d.filas.rows,f.prioridade=g.prioridade → f=g)
  (hpos : ∀ f ∈ d.filas.rows,∀ v ∈ d.vagasDe (some f.id),∀ w ∈ d.vagasDe (some f.id),
    ∀ p ∈ v.posicao,w.posicao=some p → v=w)

include hprio in
theorem Aluno.filasAtivas_strict (c : Option Nat) : (Aluno.filasAtivas c d).Pairwise
    (fun f g => nullable f.prioridade<nullable g.prioridade) := by
  refine orderBy_strict _ (d.filas.nodup_rows.filter _) ?_
  intro f hf g hg
  exact hprio f (List.mem_of_mem_filter hf) g (List.mem_of_mem_filter hg)

include hpos in
/-- A vaga without `posicao` is never selected. -/
theorem Aluno.vagasAPartir_strict (a : Aluno) {f : Fila} (hf : f ∈ d.filas.rows) :
    (a.vagasAPartir f d).Pairwise (fun v w => nullable v.posicao<nullable w.posicao) := by
  refine orderBy_strict _ ((d.vagas.nodup_rows.filter _).filter _) ?_
  intro v hv w hw he
  obtain ⟨hv,hsel⟩ := List.mem_filter.mp hv
  simp only [Bool.and_eq_true,decide_eq_true_eq] at hsel
  obtain ⟨-,p,hp,-⟩ := hsel
  exact hpos f hf v hv w (List.mem_of_mem_filter hw) p hp (he ▸ hp)

include hprio hpos in
theorem Db.proximaVaga_eq_some_iff (a : Aluno) (x : Vaga × Fila) : d.proximaVaga a=some x ↔
    x ∈ d.vagasFuturas a ∧ ∀ y ∈ d.vagasFuturas a,ordemDeChamada x≤ordemDeChamada y := by
  rw [← Db.inLanes_eq]
  exact scan_eq_some_iff (Aluno.filasAtivas_strict hprio _)
    (fun f hf => Aluno.vagasAPartir_strict hpos a ((Aluno.mem_filasAtivas _ d f).mp hf).1)

end

/-- `proxima_vaga` returns the first of the vagas to come, in the order of the filas and of the
places in them, and nil only when there is none. -/
theorem proximaVaga_primeira (s : World) (a : Aluno)
    (hprio : ∀ f ∈ s.db.filas.rows,∀ g ∈ s.db.filas.rows,f.prioridade=g.prioridade → f=g)
    (hpos : ∀ f ∈ s.db.filas.rows,∀ v ∈ s.db.vagasDe (some f.id),∀ w ∈ s.db.vagasDe (some f.id),
      ∀ p ∈ v.posicao,w.posicao=some p → v=w) :
    ∃ r,(a.proximaVaga.exec s).result=.ok r ∧
      (∀ x,r=some x ↔ x ∈ s.db.vagasFuturas a ∧
        ∀ y ∈ s.db.vagasFuturas a,ordemDeChamada x≤ordemDeChamada y) ∧
      (r=none ↔ s.db.vagasFuturas a=∅) :=
  ⟨s.db.proximaVaga a,result_proximaVaga_eq a s,Db.proximaVaga_eq_some_iff hprio hpos a,
    s.db.proximaVaga_eq_none_iff a⟩

open Cenario in
/-- The aluno of both filas is to be called in fila 2 first. -/
theorem proximaVaga_primeira_repetida :
    ((world duas repetida).db.proximaVaga (aluno 1 "a")).map (fun x => (x.1.id,x.2.id))=
      some (2,2) ∧
    ∃ r,((aluno 1 "a").proximaVaga.exec (world duas repetida)).result=.ok r ∧
      (∀ x,r=some x ↔ x ∈ (world duas repetida).db.vagasFuturas (aluno 1 "a") ∧
        ∀ y ∈ (world duas repetida).db.vagasFuturas (aluno 1 "a"),
          ordemDeChamada x≤ordemDeChamada y) ∧
      (r=none ↔ (world duas repetida).db.vagasFuturas (aluno 1 "a")=∅) :=
  ⟨by decide +kernel,
    proximaVaga_primeira (world duas repetida) (aluno 1 "a") (by decide +kernel)
      (by decide +kernel)⟩

end Sisfila
