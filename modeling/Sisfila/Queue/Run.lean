import Sisfila.Framework.Numbered
import Sisfila.Framework.References
import Sisfila.Queue.Steps

namespace Sisfila

/-- The actions of the queue, without their parameters. -/
inductive Acao where
  | inscrever
  | filasProximo
  | filasAnterior
  | filasUpdateAtivo
  | colegiadosProximo
  deriving DecidableEq

def Requisicao.acao : Requisicao → Acao
  | .inscrever _ _ => .inscrever
  | .filasProximo _ _ => .filasProximo
  | .filasAnterior _ _ => .filasAnterior
  | .filasUpdateAtivo _ _ _ => .filasUpdateAtivo
  | .colegiadosProximo _ _ => .colegiadosProximo

/-- Requests for one of these actions, however they end. -/
def quaisquer (as : List Acao) (r : Requisicao) (_ : Bool) : Prop := r.acao ∈ as

/-- Requests for one of these actions that end without an exception. -/
def completas (as : List Acao) (r : Requisicao) (ok : Bool) : Prop := ok=true ∧ r.acao ∈ as

instance (as : List Acao) (r : Requisicao) (ok : Bool) : Decidable (quaisquer as r ok) :=
  inferInstanceAs (Decidable (r.acao ∈ as))

instance (as : List Acao) (r : Requisicao) (ok : Bool) : Decidable (completas as r ok) :=
  inferInstanceAs (Decidable (ok=true ∧ r.acao ∈ as))

/-- Requests one after another, with all their events. `p r ok` says which requests the run may
contain and how they may end. -/
inductive Corre (p : Requisicao → Bool → Prop) (s₀ : World) : List Evento → World → Prop
  | inicio : Corre p s₀ [] s₀
  | passo {es : List Evento} {s : World} (r : Requisicao) (h : Corre p s₀ es s)
      (hr : p r (r.prog.exec s).ok) :
      Corre p s₀ (es++(r.prog.exec s).log) (r.prog.exec s).state

/-- What every step keeps holds along the run. -/
theorem Corre.invariante {p : Requisicao → Bool → Prop} {s₀ s : World} {es : List Evento}
    (h : Corre p s₀ es s) (I : Core → List Evento → Prop) (h₀ : I s₀.db.core [])
    (hI : ∀ k es r ok ms k',I k es → p r ok → k.Passo r ok ms k' → I k' (es++ms)) :
    I s.db.core (es.filter Evento.marca) := by
  induction h with
  | inicio => exact h₀
  | passo r _ hr ih =>
    rw [List.filter_append]
    exact hI _ _ r _ _ _ ih hr (r.passo _)

/-- The run of a list of requests: its events, and the state it ends in. -/
def executa (s : World) (rs : List Requisicao) : List Evento × World :=
  rs.foldl (fun x r => (x.1++(r.prog.exec x.2).log,(r.prog.exec x.2).state)) ([],s)

theorem corre_executa (as : List Acao) (s : World) (rs : List Requisicao)
    (h : ∀ r ∈ rs,r.acao ∈ as) : Corre (quaisquer as) s (executa s rs).1 (executa s rs).2 := by
  have hg : ∀ x : List Evento × World,Corre (quaisquer as) s x.1 x.2 →
      Corre (quaisquer as) s
        (rs.foldl (fun x r => (x.1++(r.prog.exec x.2).log,(r.prog.exec x.2).state)) x).1
        (rs.foldl (fun x r => (x.1++(r.prog.exec x.2).log,(r.prog.exec x.2).state)) x).2 := by
    induction rs with
    | nil => exact fun x hx => hx
    | cons r rs ih =>
      intro x hx
      exact ih (fun q hq => h q (List.mem_cons_of_mem r hq)) _ (hx.passo r (h r List.mem_cons_self))
  exact hg _ .inicio

namespace Core

variable (k : Core)

/-! What each write leaves of the lists of vagas and filas. -/

@[simp] theorem vagas_incrementa (i : Nat) (n : Int) : (k.incrementa i n).vagas=k.vagas := rfl
@[simp] theorem vagas_ocupa (m : Mesa) (v : Option Nat) (t : ℚ) :
    (k.ocupa m v t).vagas=k.vagas := rfl
@[simp] theorem vagas_ativaFila (i : Nat) (b : Option Bool) :
    (k.ativaFila i b).vagas=k.vagas := rfl
@[simp] theorem filas_ocupa (m : Mesa) (v : Option Nat) (t : ℚ) :
    (k.ocupa m v t).filas=k.filas := rfl
@[simp] theorem filas_insereVaga (a f n : Nat) (t : ℚ) :
    (k.insereVaga a f n t).filas=k.filas := rfl

@[simp] theorem vagasDe_incrementa (i : Nat) (n : Int) (f : Nat) :
    (k.incrementa i n).vagasDe f=k.vagasDe f := rfl
@[simp] theorem vagasDe_ocupa (m : Mesa) (v : Option Nat) (t : ℚ) (f : Nat) :
    (k.ocupa m v t).vagasDe f=k.vagasDe f := rfl
@[simp] theorem vagasDe_ativaFila (i : Nat) (b : Option Bool) (f : Nat) :
    (k.ativaFila i b).vagasDe f=k.vagasDe f := rfl

theorem mem_vagasDe {k : Core} {f : Nat} {v : VagaBase} :
    v ∈ k.vagasDe f ↔ v ∈ k.vagas.rows ∧ v.filaId=some f := by
  simp [vagasDe]

theorem mem_of_vagaEm {k : Core} {f : Nat} {p : Int} {v : VagaBase} (h : k.vagaEm f p=some v) :
    v ∈ k.vagas.rows ∧ v.filaId=some f ∧ v.posicao=some p := by
  obtain ⟨hr,hf⟩ := mem_vagasDe.mp (List.mem_of_find?_eq_some h)
  have hp := List.find?_some h
  exact ⟨hr,hf,beq_iff_eq.mp hp⟩

/-- The row an enrolment adds. -/
def novaVaga (a f n : Nat) (t : ℚ) : VagaBase where
  id := k.vagas.next
  alunoId := some a
  posicao := some (n+1 : Nat)
  filaId := some f
  createdAt := t
  posicao_pos := VagaBase.one_le_fundo n

theorem rows_insereVaga (a f n : Nat) (t : ℚ) :
    (k.insereVaga a f n t).vagas.rows=k.vagas.rows++[k.novaVaga a f n t] := rfl

theorem vagasDe_insereVaga (a f n : Nat) (t : ℚ) (g : Nat) :
    (k.insereVaga a f n t).vagasDe g=
      if f=g then k.vagasDe g++[k.novaVaga a f n t] else k.vagasDe g := by
  unfold vagasDe
  rw [rows_insereVaga,List.filter_append]
  split_ifs with h
  · simp [novaVaga,naFila,h]
  · simp [novaVaga,naFila,h]

/-- A desk holds what it held, or it is the one that was written. -/
theorem mem_mesas_ocupa {m : Mesa} {v : Option Nat} {t : ℚ} {a : Mesa}
    (h : a ∈ (k.ocupa m v t).mesas.rows) :
    ∃ b ∈ k.mesas.rows,a.id=b.id ∧ (a.vagaId=b.vagaId ∨ b.id=m.id ∧ a.vagaId=v) := by
  unfold ocupa at h
  split_ifs at h with hv
  · exact ⟨a,h,rfl,.inl rfl⟩
  · obtain ⟨b,hb,rfl⟩ := List.mem_map.mp h
    refine ⟨b,hb,?_⟩
    split_ifs with hm
    · exact ⟨rfl,.inr ⟨hm,rfl⟩⟩
    · exact ⟨rfl,.inl rfl⟩

/-- A desk written as it was loaded holds the vaga. -/
theorem find_mesas_ocupa {m : Mesa} (hm : k.mesas.find m.id=some m) (v : Option Nat) (t : ℚ) :
    ∃ r,(k.ocupa m v t).mesas.find m.id=some r ∧ r.vagaId=v := by
  unfold ocupa
  split_ifs with hv
  · exact ⟨m,hm,hv⟩
  · rw [Table.find_modify,hm,Option.map_some]
    exact ⟨_,rfl,by simp⟩

theorem find_mesas_ocupa_of_ne {m : Mesa} {d : Nat} (hd : d≠m.id) (v : Option Nat) (t : ℚ) :
    (k.ocupa m v t).mesas.find d=k.mesas.find d := by
  unfold ocupa
  split_ifs
  · rfl
  · exact k.mesas.find_modify_of_ne hd (fun r => { r with vagaId := v, updatedAt := t })
      (fun _ => rfl)

theorem refere_ocupa {k : Core} (h : Refers Mesa.vagaId k.mesas k.vagas) (m : Mesa) {v : Option Nat}
    (hv : ∀ i ∈ v,i ∈ k.vagas.keys) (t : ℚ) :
    Refers Mesa.vagaId (k.ocupa m v t).mesas k.vagas := by
  unfold ocupa
  split_ifs
  · exact h
  · refine h.modify m.id (fun r => { r with vagaId := v, updatedAt := t }) (fun _ => rfl) ?_
    intro r i hi
    exact .inr (hv i hi)

theorem refere_vagaEm {k : Core} {f : Nat} {p : Int} :
    ∀ i ∈ (k.vagaEm f p).map (fun v => v.id),i ∈ k.vagas.keys := by
  intro i hi
  obtain ⟨v,hv,rfl⟩ := Option.map_eq_some_iff.mp hi
  exact List.mem_map_of_mem (mem_of_vagaEm hv).1

theorem mem_filas_incrementa {i : Nat} {n : Int} {f : FilaBase}
    (h : f ∈ (k.incrementa i n).filas.rows) :
    ∃ g ∈ k.filas.rows,f.id=g.id ∧ f.prioridade=g.prioridade ∧ f.ativo=g.ativo ∧
      f.colegiadoId=g.colegiadoId ∧ f.posicao=if g.id=i then g.posicao+n else g.posicao := by
  simp only [incrementa,Table.modify_rows,List.mem_map,Row.key_filaBase] at h
  obtain ⟨g,hg,rfl⟩ := h
  refine ⟨g,hg,?_⟩
  split_ifs <;> simp

theorem mem_filas_ativaFila {i : Nat} {b : Option Bool} {f : FilaBase}
    (h : f ∈ (k.ativaFila i b).filas.rows) :
    ∃ g ∈ k.filas.rows,f.id=g.id ∧ f.prioridade=g.prioridade ∧ f.colegiadoId=g.colegiadoId ∧
      f.posicao=g.posicao := by
  simp only [ativaFila,Table.modify_rows,List.mem_map,Row.key_filaBase] at h
  obtain ⟨g,hg,rfl⟩ := h
  refine ⟨g,hg,?_⟩
  split_ifs <;> simp

/-! The two invariants of every list. -/

/-- The vagas of each fila are numbered from 1 in the order of enrolment. -/
def Contigua : Prop := ∀ f,Numbered VagaBase.posicao (k.vagasDe f)

/-- No pointer leaves its list. -/
def NaLista : Prop :=
  ∀ f ∈ k.filas.rows,0≤f.posicao ∧ f.posicao≤((k.vagasDe f.id).length : Int)

variable {k}

/-- The same, of the rows with all their columns. -/
theorem Contigua.numerada {d : Db} (h : d.core.Contigua) (f : Nat) :
    Numbered (fun v : Vaga => v.posicao) (d.vagasDe (some f)) := by
  have hf := h f
  rw [Db.vagasDe_core] at hf
  exact Numbered.map_iff.mp hf

theorem Contigua.maiorPosicao (h : k.Contigua) (f : Nat) :
    k.maiorPosicao f=(k.vagasDe f).length := (h f).foldr_max

theorem Contigua.insereVaga (h : k.Contigua) (a f : Nat) (t : ℚ) :
    (k.insereVaga a f (k.maiorPosicao f) t).Contigua := by
  intro g
  rw [vagasDe_insereVaga]
  split_ifs with hg
  · subst hg
    refine (h f).append ?_
    simp [novaVaga,h.maiorPosicao]
  · exact h g

theorem NaLista.insereVaga (h : k.NaLista) (a f n : Nat) (t : ℚ) :
    (k.insereVaga a f n t).NaLista := by
  intro g hg
  obtain ⟨h0,h1⟩ := h g hg
  rw [vagasDe_insereVaga]
  split_ifs
  · rw [List.length_append]
    push_cast
    omega
  · exact ⟨h0,h1⟩

theorem NaLista.incrementa (h : k.NaLista) {f : FilaBase} (hf : k.filas.find f.id=some f) {n : Int}
    (h0 : 0≤f.posicao+n) (hp : f.posicao+n≤((k.vagasDe f.id).length : Int)) :
    (k.incrementa f.id n).NaLista := by
  intro g' hg'
  obtain ⟨g,hg,hid,-,-,-,hpos⟩ := k.mem_filas_incrementa hg'
  rw [vagasDe_incrementa,hid,hpos]
  split_ifs with hi
  · obtain rfl : g=f := by
      have hm := Table.mem_of_find hf
      exact k.filas.key_injective hg hm hi
    exact ⟨h0,hp⟩
  · exact h g hg

/-- A pointer that has vagas after it can move to the next one. -/
theorem NaLista.avanca (h : k.NaLista) {f : FilaBase} (hf : k.filas.find f.id=some f)
    (hp : f.posicao<((k.vagasDe f.id).length : Int)) : (k.incrementa f.id 1).NaLista := by
  have hm := Table.mem_of_find hf
  have h0 := (h f hm).1
  exact h.incrementa hf (by omega) (by omega)

theorem proximaFila_find {c : Nat} {f : FilaBase} (h : k.proximaFila c=some f) :
    k.filas.find f.id=some f := by
  refine (k.filas.find_eq_some_iff _ _).mpr ⟨?_,rfl⟩
  exact List.mem_of_mem_filter ((mem_orderBy _ _ _).mp (List.mem_of_find?_eq_some h))

theorem proximaFila_lt {c : Nat} {f : FilaBase} (h : k.proximaFila c=some f) :
    f.posicao<((k.vagasDe f.id).length : Int) := by
  simpa using List.find?_some h

/-- What a request leaves, up to the desks. -/
inductive Efeito (k : Core) : Requisicao → Core → Prop
  | nada (r : Requisicao) (ms : Table Mesa) : Efeito k r { k with mesas := ms }
  | inscreve (s : Sessao) (m : Option String) (a : Aluno) (g : Grupo) (f : FilaBase) (t : ℚ)
      (ha : a ∈ k.alunos.rows) (hm : a.matricula=m)
      (hg : a.primeiroGrupo k.grupos k.alunosGrupos=some g) (hgf : g.filaId=some f.id)
      (hf : k.filas.find f.id=some f) (hv : k.proximaVaga a=none) :
      Efeito k (.inscrever s m) (k.insereVaga a.id f.id (k.maiorPosicao f.id) t)
  | avanca (r : Requisicao) (f : FilaBase) (ms : Table Mesa)
      (hr : r.acao=.filasProximo ∨ r.acao=.colegiadosProximo) (hf : k.filas.find f.id=some f)
      (hn : f.posicao≠((k.vagasDe f.id).length : Int)) :
      Efeito k r { k.incrementa f.id 1 with mesas := ms }
  | recua (s : Sessao) (f : FilaBase) (ms : Table Mesa) (hf : k.filas.find f.id=some f) :
      Efeito k (.filasAnterior s f.id) { k.incrementa f.id (-1) with mesas := ms }
  | ativa (s : Sessao) (i : Nat) (b : Option Bool) :
      Efeito k (.filasUpdateAtivo s i b) (k.ativaFila i b)

theorem Chama.exists_mesas {f : FilaBase} {n : Int} {mesa : Option Nat} {ok : Bool}
    {es : List Evento} {k' : Core} (h : k.Chama f n mesa ok es k') :
    ∃ ms,k'={ k.incrementa f.id n with mesas := ms } := by
  cases h <;> exact ⟨_,rfl⟩

theorem Esvazia.exists_mesas {mesa : Option Nat} {es : List Evento} {k' : Core}
    (h : k.Esvazia mesa es k') : ∃ ms,k'={ k with mesas := ms } := by
  cases h <;> exact ⟨_,rfl⟩

theorem Passo.efeito {r : Requisicao} {ok : Bool} {es : List Evento} {k' : Core}
    (h : k.Passo r ok es k') : k.Efeito r k' := by
  cases h with
  | recusa => exact .nada _ _
  | naoInscreve => exact .nada _ _
  | inscreve s m a g f t ha hm hg hgf hf hv => exact .inscreve s m a g f t ha hm hg hgf hf hv
  | filasFim s f hf hn he =>
    obtain ⟨ms,rfl⟩ := he.exists_mesas
    exact .nada _ _
  | filasProximo s f hf hn hc =>
    obtain ⟨ms,rfl⟩ := hc.exists_mesas
    exact .avanca _ f ms (Or.inl rfl) hf hn
  | filasAnterior s f hf hc =>
    obtain ⟨ms,rfl⟩ := hc.exists_mesas
    exact .recua s f ms hf
  | edita => exact .nada _ _
  | ativa s i b => exact .ativa s i b
  | semMesa => exact .nada _ _
  | colegiadosFim s c m hm hf he =>
    obtain ⟨ms,rfl⟩ := he.exists_mesas
    exact .nada _ _
  | colegiadosProximo s c m f hm hf hc =>
    obtain ⟨ms,rfl⟩ := hc.exists_mesas
    exact .avanca _ f ms (Or.inr rfl) (proximaFila_find hf) (ne_of_lt (proximaFila_lt hf))

/-- No request breaks the numbering. -/
theorem Efeito.contigua {r : Requisicao} {k' : Core} (h : k.Efeito r k') (hk : k.Contigua) :
    k'.Contigua := by
  cases h with
  | nada => exact hk
  | inscreve s m a g f t => exact hk.insereVaga a.id f.id t
  | avanca => exact hk
  | recua => exact hk
  | ativa => exact hk

/-- Only `anterior` can move a pointer out of its list. -/
theorem Efeito.naLista {r : Requisicao} {k' : Core} (h : k.Efeito r k')
    (hr : r.acao≠.filasAnterior) (hk : k.NaLista) : k'.NaLista := by
  cases h with
  | nada => exact hk
  | inscreve s m a g f t => exact hk.insereVaga a.id f.id _ t
  | avanca _ f ms _ hf hn =>
    have hm := Table.mem_of_find hf
    exact hk.avanca hf (lt_of_le_of_ne (hk f hm).2 hn)
  | recua => exact absurd rfl hr
  | ativa s i b =>
    intro f hf
    obtain ⟨g,hg,hid,-,-,hp⟩ := k.mem_filas_ativaFila hf
    rw [vagasDe_ativaFila,hid,hp]
    exact hk g hg

theorem naLista_of_zero {d : Db} (hz : ∀ f ∈ d.filas.rows,f.posicao=0) : d.core.NaLista := by
  intro f hf
  obtain ⟨g,hg,rfl⟩ := List.mem_map.mp hf
  have h0 : g.posicao=0 := hz g hg
  simp [h0]

theorem contigua_of_vazia (hv : k.vagas.rows=[]) : k.Contigua := by
  intro f
  have hn : k.vagasDe f=[] := by simp [vagasDe,hv]
  rw [hn]
  exact Numbered.nil

end Core

/-- From no vagas on, every list stays numbered. -/
theorem Corre.contigua {p : Requisicao → Bool → Prop} {s₀ s : World} {es : List Evento}
    (h : Corre p s₀ es s) (hv : s₀.db.vagas.rows=[]) : s.db.core.Contigua :=
  h.invariante (fun k _ => k.Contigua) (Core.contigua_of_vazia (by simp [hv]))
    (fun _ _ _ _ _ _ hk _ hp => hp.efeito.contigua hk)

/-- From pointers at 0 on, every pointer stays in its list as long as nobody steps back. -/
theorem Corre.naLista {p : Requisicao → Bool → Prop} {s₀ s : World} {es : List Evento}
    (h : Corre p s₀ es s) (hp : ∀ r ok,p r ok → r.acao≠.filasAnterior)
    (hz : ∀ f ∈ s₀.db.filas.rows,f.posicao=0) : s.db.core.NaLista := by
  exact h.invariante (fun k _ => k.NaLista) (Core.naLista_of_zero hz)
    (fun _ _ r ok _ _ hk hr hs => hs.efeito.naLista (hp r ok hr) hk)

/-! A small installation for runs on concrete data: one colegiado, five alunos whose grupo leads
to fila 1, two desks. -/

namespace Cenario

def aluno (i : Nat) (m : String) : Aluno := { id := i, matricula := some m, colegiadoId := some 1 }

def db (filas : Table Fila) (vagas : Table Vaga) : Db where
  alunos := ⟨[aluno 1 "a",aluno 2 "b",aluno 3 "c",aluno 4 "d",aluno 5 "e"],6,by decide,by decide⟩
  alunosGrupos := [(1,1),(2,1),(3,1),(4,1),(5,1)]
  colegiados := ⟨[{ id := 1 }],2,by decide,by decide⟩
  filas := filas
  grupos := ⟨[{ id := 1, prioridade := some 1, filaId := some 1 }],2,by decide,by decide⟩
  mesas := ⟨[{ id := 1 },{ id := 2 }],3,by decide,by decide⟩
  rodadas := ⟨[{ id := 1, inscricaoGuest := some true }],2,by decide,by decide⟩
  vagas := vagas

/-- Ten seconds pass between two readings of the clock. -/
def world (filas : Table Fila) (vagas : Table Vaga) : World := ⟨db filas vagas,fun n => 10*n⟩

/-- Fila 1 alone, with the defaults of the schema. -/
def padrao : Table Fila :=
  ⟨[{ id := 1, prioridade := some 1, colegiadoId := some 1 }],2,by decide,by decide⟩

/-- Fila 1 alone, created with `posicao` 0. -/
def nova : Table Fila :=
  ⟨[{ id := 1, prioridade := some 1, posicao := 0, colegiadoId := some 1 }],2,by decide,by decide⟩

/-- Fila 1 alone, with an attendance time measured before. -/
def medida : Table Fila :=
  ⟨[{ id := 1, prioridade := some 1, posicao := 0, colegiadoId := some 1,
      tempoatendimento := some (.num 60) }],2,by decide,by decide⟩

/-- Fila 1 alone, switched off. -/
def inativa : Table Fila :=
  ⟨[{ id := 1, prioridade := some 1, posicao := 0, ativo := some false, colegiadoId := some 1 }],2,
    by decide,by decide⟩

/-- Two filas of the colegiado: the alunos go to fila 1, and fila 2 is called first. -/
def duas : Table Fila :=
  ⟨[{ id := 1, prioridade := some 2, posicao := 0, colegiadoId := some 1,
      tempoatendimento := some (.num 60) },
    { id := 2, prioridade := some 1, posicao := 0, colegiadoId := some 1,
      tempoatendimento := some (.num 60) }],3,by decide,by decide⟩

/-- Fila 2 has no prioridade. -/
def semPrioridade : Table Fila :=
  ⟨[{ id := 1, prioridade := some 2, posicao := 0, colegiadoId := some 1,
      tempoatendimento := some (.num 60) },
    Fila.comPrioridade none
      { id := 2, prioridade := some 1, posicao := 0, colegiadoId := some 1,
        tempoatendimento := some (.num 60) }],3,by decide,by decide⟩

/-- One aluno waits in each of the two filas. -/
def umaEmCada : Table Vaga :=
  ⟨[{ id := 1, alunoId := some 1, posicao := some 1, filaId := some 1, createdAt := 0 },
    { id := 2, alunoId := some 2, posicao := some 1, filaId := some 2, createdAt := 0 }],3,
    by decide,by decide⟩

/-- One aluno first in both filas; the vaga of fila 1 has been called. -/
def repetida : Table Vaga :=
  ⟨[{ id := 1, alunoId := some 1, posicao := some 1, filaId := some 1, createdAt := 100,
      dataChamada := some 500, temponafila := some 400 },
    { id := 2, alunoId := some 1, posicao := some 1, filaId := some 2, createdAt := 600 }],3,
    by decide,by decide⟩

/-- Fila 1 after three calls, one arrival and two calls an hour, with a measured waiting time. -/
def atendida (t : ℚ) : Table Fila :=
  ⟨[{ id := 1, prioridade := some 1, posicao := 3, colegiadoId := some 1, npatendidas := some 3,
      mi := some (.num 2), lambda := some (.num 1), tempomedioespera := some (.num t) }],2,
    List.pairwise_singleton _ _,List.forall_mem_singleton.mpr Nat.one_lt_two⟩

/-- The three vagas it has called. -/
def tresChamadas : Table Vaga :=
  ⟨[{ id := 1, alunoId := some 1, posicao := some 1, filaId := some 1, createdAt := 0 },
    { id := 2, alunoId := some 2, posicao := some 2, filaId := some 1, createdAt := 3600 },
    { id := 3, alunoId := some 3, posicao := some 3, filaId := some 1, createdAt := 7200 }],4,
    by decide,by decide⟩

/-- The second aluno goes to fila 2. -/
def doisGrupos (filas : Table Fila) : World :=
  ⟨{ db filas .empty with
      alunosGrupos := [(1,1),(2,2)]
      grupos := ⟨[{ id := 1, prioridade := some 1, filaId := some 1 },
        { id := 2, prioridade := some 1, filaId := some 2 }],3,by decide,by decide⟩ },
    fun n => 10*n⟩

def inscreve (m : String) : Requisicao := .inscrever ⟨none,none⟩ (some m)

/-- A superadmin at desk `m`. -/
def mesa (m : Nat) : Sessao := ⟨some { superadminRole := true },some m⟩

end Cenario

end Sisfila
