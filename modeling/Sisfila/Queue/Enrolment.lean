import Sisfila.Queue.Run

namespace Sisfila

namespace Core

variable {k : Core}

/-- A vaga of the aluno, at or past the pointer, in an active fila of the aluno's colegiado. -/
def Viva (k : Core) (a : Aluno) (v : VagaBase) : Prop :=
  v ∈ k.vagas.rows ∧ v.alunoId=some a.id ∧ ∃ f ∈ k.filas.rows,v.filaId=some f.id ∧
    f.ativo=some true ∧ f.colegiadoId=k.colegiadoDe a.colegiadoId ∧
    ∃ p ∈ v.posicao,f.posicao≤p

/-- `Aluno#proxima_vaga` finds a live vaga whenever there is one. -/
theorem proximaVaga_eq_none_iff (k : Core) (a : Aluno) :
    k.proximaVaga a=none ↔ ∀ v,¬k.Viva a v := by
  have he : ∀ f : FilaBase,(k.vagasAPartir a f).head?.map (fun v => (v,f))=none ↔
      ∀ v ∈ k.vagas.rows,v.filaId=some f.id → v.alunoId=some a.id →
        ¬∃ p ∈ v.posicao,f.posicao≤p := by
    intro f
    rw [Option.map_eq_none_iff,List.head?_eq_none_iff,vagasAPartir,List.eq_nil_iff_forall_not_mem]
    simp only [mem_orderBy,vagasDe,List.mem_filter,naFila_iff,Bool.and_eq_true,beq_iff_eq,
      decide_eq_true_eq,not_and]
    exact ⟨fun h v hv hf ha => h v ⟨hv,hf⟩ ha,fun h v hv ha => h v hv.1 hv.2 ha⟩
  simp only [proximaVaga,List.findSome?_eq_none_iff,he,filasAtivas,mem_orderBy,List.mem_filter,
    Bool.and_eq_true,beq_iff_eq,Viva,not_and,not_exists]
  constructor
  · intro h v hv ha f hf hvf hat hc
    exact h f ⟨hf,hat,hc⟩ v hv hvf ha
  · intro h f hf v hv hvf ha
    exact h v hv ha f hf.1 hvf hf.2.1 hf.2.2

/-- An enrolment adds at most the new vaga to the live ones. -/
theorem viva_insereVaga {a b : Aluno} {f : FilaBase} {n : Nat} {t : ℚ} {v : VagaBase}
    (hf : k.filas.find f.id=some f) :
    (k.insereVaga a.id f.id n t).Viva b v ↔ k.Viva b v ∨ v=k.novaVaga a.id f.id n t ∧
      a.id=b.id ∧ f.ativo=some true ∧ f.colegiadoId=k.colegiadoDe b.colegiadoId ∧
      f.posicao≤(n : Int)+1 := by
  have hm := Table.mem_of_find hf
  unfold Viva
  rw [rows_insereVaga,filas_insereVaga,List.mem_append,List.mem_singleton]
  constructor
  · rintro ⟨hv | rfl,ha,g,hg,hvg,hat,hc,p,hp,hle⟩
    · exact Or.inl ⟨hv,ha,g,hg,hvg,hat,hc,p,hp,hle⟩
    · obtain rfl : f=g := k.filas.key_injective hm hg (by simpa [novaVaga] using hvg)
      obtain rfl : ((n+1 : Nat) : Int)=p := by simpa [novaVaga] using hp
      exact Or.inr ⟨rfl,by simpa [novaVaga] using ha,hat,hc,by simpa using hle⟩
  · rintro (⟨hv,ha,h⟩ | ⟨rfl,ha,hat,hc,hle⟩)
    · exact ⟨Or.inl hv,ha,h⟩
    · exact ⟨Or.inr rfl,by simp [novaVaga,ha],f,hm,rfl,hat,hc,_,rfl,by simpa using hle⟩

/-- A pointer that moves forward makes no vaga live. -/
theorem viva_of_avanca {a : Aluno} {v : VagaBase} {i : Nat} {ms : Table Mesa}
    (h : ({ k.incrementa i 1 with mesas := ms } : Core).Viva a v) : k.Viva a v := by
  obtain ⟨hv,ha,f,hf,hvf,hat,hc,p,hp,hle⟩ := h
  obtain ⟨g,hg,hid,-,hga,hgc,hpos⟩ := k.mem_filas_incrementa hf
  refine ⟨hv,ha,g,hg,hid ▸ hvf,hga ▸ hat,hgc ▸ hc,p,hp,?_⟩
  split_ifs at hpos <;> omega

/-- No aluno has two live vagas. -/
def UmaViva (k : Core) : Prop :=
  ∀ a ∈ k.alunos.rows,∀ v w,k.Viva a v → k.Viva a w → v=w

theorem Efeito.umaViva {r : Requisicao} {k' : Core} (h : k.Efeito r k')
    (hr : r.acao ∈ [Acao.inscrever,.filasProximo,.colegiadosProximo]) (hk : k.UmaViva) :
    k'.UmaViva := by
  cases h with
  | nada => exact hk
  | inscreve s m a g f t ha hm hg hgf hf hp =>
    intro b hb v w hv hw
    rw [viva_insereVaga hf] at hv hw
    have hn := (k.proximaVaga_eq_none_iff a).mp hp
    have hab : a.id=b.id → a=b := fun h => k.alunos.key_injective ha hb h
    rcases hv with hv | ⟨rfl,hva,-⟩ <;> rcases hw with hw | ⟨rfl,hwa,-⟩
    · exact hk b hb v w hv hw
    · exact absurd (hab hwa ▸ hv) (hn v)
    · exact absurd (hab hva ▸ hw) (hn w)
    · rfl
  | avanca _ f ms => exact fun a ha v w hv hw => hk a ha v w (viva_of_avanca hv) (viva_of_avanca hw)
  | recua => simp [Requisicao.acao] at hr
  | ativa => simp [Requisicao.acao] at hr

end Core

/-- A vaga of the aluno, at or past the pointer, in an active fila of the aluno's colegiado. -/
def Db.Viva (d : Db) (a : Aluno) (v : Vaga) : Prop :=
  v ∈ d.vagas.rows ∧ v.alunoId=some a.id ∧ ∃ f ∈ d.filas.rows,v.filaId=some f.id ∧
    f.ativo=some true ∧ f.colegiadoId=d.colegiadoDe a.colegiadoId ∧
    ∃ p ∈ v.posicao,f.posicao≤p

theorem Db.Viva.core {d : Db} {a : Aluno} {v : Vaga} (h : d.Viva a v) :
    d.core.Viva a v.toVagaBase := by
  obtain ⟨hv,ha,f,hf,hvf,hat,hc,hp⟩ := h
  exact ⟨List.mem_map.mpr ⟨v,hv,rfl⟩,ha,f.toFilaBase,List.mem_map.mpr ⟨f,hf,rfl⟩,hvf,hat,hc,hp⟩

/-- Whatever the filas look like at the start, and also when calls fail half-way, an aluno has at
most one live vaga. -/
theorem viva_unique {s₀ s : World} {es : List Evento} (hv : s₀.db.vagas.rows=[])
    (h : Corre (quaisquer [.inscrever,.filasProximo,.colegiadosProximo]) s₀ es s) :
    ∀ a ∈ s.db.alunos.rows,∀ v w,s.db.Viva a v → s.db.Viva a w → v=w := by
  have hI := h.invariante (fun k _ => k.UmaViva)
    (by rintro a _ v w ⟨hm,_⟩; simp [hv] at hm)
    (fun k es r ok ms k' hk hr hp => hp.efeito.umaViva hr hk)
  intro a ha v w hvv hvw
  have hb := hI a ha _ _ hvv.core hvw.core
  exact s.db.vagas.key_injective hvv.1 hvw.1 (congrArg VagaBase.id hb)

/-- An enrolment, a call that raises and a second enrolment, which is refused. -/
theorem viva_unique_cenario : ∃ es s,
    Corre (quaisquer [.inscrever,.filasProximo,.colegiadosProximo])
      (Cenario.world Cenario.nova .empty) es s ∧ s.db.vagas.rows.length=1 ∧
    ∀ a ∈ s.db.alunos.rows,∀ v w,s.db.Viva a v → s.db.Viva a w → v=w := by
  have h := corre_executa [.inscrever,.filasProximo,.colegiadosProximo]
    (Cenario.world Cenario.nova .empty) [Cenario.inscreve "a",
      .filasProximo (Cenario.mesa 1) 1,Cenario.inscreve "a"] (by decide)
  exact ⟨_,_,h,by decide +kernel,viva_unique (by decide +kernel) h⟩

/-- What `Aluno#proxima_vaga` returns, with the fila it was found through. -/
def Db.proximaVaga (d : Db) (a : Aluno) : Option (Vaga × Fila) :=
  a.acha (Aluno.filasAtivas (d.colegiadoDe a.colegiadoId) d) d

/-- A vaga is found by its position, so it has one. -/
theorem Db.posicao_of_proximaVaga {d : Db} {a : Aluno} {v : Vaga} {f : Fila}
    (h : d.proximaVaga a=some (v,f)) : ∃ p,v.posicao=some p := by
  obtain ⟨g,-,hg⟩ := List.exists_of_findSome?_eq_some h
  obtain ⟨w,hw,he⟩ := Option.map_eq_some_iff.mp hg
  obtain ⟨rfl,rfl⟩ := Prod.mk.inj he
  have hm := (mem_orderBy _ _ _).mp (List.mem_of_mem_head? (Option.mem_def.mpr hw))
  have hp := (List.mem_filter.mp hm).2
  simp only [Bool.and_eq_true,decide_eq_true_eq] at hp
  obtain ⟨p,hp,-⟩ := hp.2
  exact ⟨p,hp⟩

/-- The column holds a number that can be multiplied and split into hours. -/
def Fila.comTempo (f : Fila) : Prop := ∃ q,f.tempoatendimento=some (.num q)

/-! Enrolling twice. -/

namespace TelaController

/-- The session may enrol at all. -/
def Aberta (d : Db) (u : Sessao) : Prop :=
  ∃ r,d.rodadas.rows.head?=some r ∧
    (r.inscricaoGuest=some true ∨ u.usuario≠none ∧ Ability.manageInscricao u=true)

/-- The aluno the matricula finds and the grupo the enrolment goes by. -/
def Escolhe (d : Db) (m : Option String) (a : Aluno) (g : Grupo) : Prop :=
  d.alunos.rows.find? (fun a => a.matricula==m)=some a ∧ a.ativo=some true ∧
    a.primeiroGrupo d.grupos d.alunosGrupos=some g

/-- A chosen grupo is an active one, so the earlier test finds it too. -/
theorem head_gruposAtivos {a : Aluno} {grupos : Table Grupo} {ag : List (Nat × Nat)} {g : Grupo}
    (h : a.primeiroGrupo grupos ag=some g) :
    (orderBy Grupo.prioridade (a.gruposAtivos grupos ag)).head?.isSome=true := by
  have hm := List.mem_of_mem_head? (Option.mem_def.mpr h)
  have hg : g ∈ orderBy Grupo.prioridade (a.gruposAtivos grupos ag) := by
    rw [mem_orderBy]
    exact List.mem_of_mem_filter ((mem_orderBy _ _ _).mp (List.mem_of_mem_filter hm))
  rw [List.isSome_head?]
  exact List.ne_nil_of_mem hg

private theorem exec_inscreveMatricula {m : Option String} {s : World} {a : Aluno} {g : Grupo}
    (h : Escolhe s.db m a g) : ∃ log,(inscreveMatricula m).exec s=
      ⟨log++((inscreve a g).exec s).log,((inscreve a g).exec s).result,
        ((inscreve a g).exec s).state⟩ := by
  obtain ⟨ha,hat,hg⟩ := h
  refine ⟨[.consulta,.consulta,.consulta],?_⟩
  simp [inscreveMatricula,Prog.exec_bind,ha,hat,Aluno.estaEmAlgumGrupo,
    Aluno.primeiroGrupoAtivoComFilaAtiva,hg,head_gruposAtivos hg]

/-- An enrolment that is let through does what `inscreve` does for the chosen aluno and grupo. -/
theorem exec_inscrever {u : Sessao} {m : Option String} {s : World} {a : Aluno} {g : Grupo}
    (hu : Aberta s.db u) (h : Escolhe s.db m a g) : ∃ log,(inscrever u m).exec s=
      ⟨log++((inscreve a g).exec s).log,((inscreve a g).exec s).result,
        ((inscreve a g).exec s).state⟩ := by
  obtain ⟨r,hr,hu⟩ := hu
  obtain ⟨log,he⟩ := exec_inscreveMatricula h
  refine ⟨.consulta::log,?_⟩
  by_cases hg : r.inscricaoGuest=some true
  · simp [inscrever,Prog.exec_bind,hr,hg,he]
  · obtain ⟨hn,hm⟩ := hu.resolve_left hg
    simp [inscrever,Prog.exec_bind,hr,hn,hm,he]

/-- The answers that turn a request away before the queue is looked at. -/
inductive Recusa : Resposta → Prop
  | entrar : Recusa .entrar
  | semPermissao : Recusa (.json 403 "Você não tem permissão.")
  | semMatricula : Recusa (.json 405 "Número de matrícula não encontrado. (Cód. de Erro: 11)")
  | inativo : Recusa (.json 405 "Número de matrícula não encontrado. (Cód. de Erro: 99)")
  | semGrupo : Recusa (.json 405 "Número de matrícula não encontrado. (Cód. de Erro: 42)")
  | semHorario : Recusa (.json 405 "Matrícula não habilitada para este horário. (Cód. de Erro: 27)")

theorem Recusa.ne_inscrito {r : Resposta} (h : Recusa r) (a : Aluno) (c : String) :
    r≠.inscrito a c := by
  cases h <;> simp

private theorem recusa_matricula {m : Option String} {s : World} (h : ∀ a g,¬Escolhe s.db m a g) :
    ∃ log r,(inscreveMatricula m).exec s=⟨log,.ok r,s⟩ ∧ Recusa r := by
  cases ha : s.db.alunos.rows.find? (fun a => a.matricula==m) with
  | none =>
    exact ⟨[.consulta],_,by simp [inscreveMatricula,Prog.exec_bind,ha],.semMatricula⟩
  | some a =>
    by_cases hat : a.ativo=some true
    · have hg : a.primeiroGrupo s.db.grupos s.db.alunosGrupos=none := by
        rw [Option.eq_none_iff_forall_not_mem]
        exact fun g hg => h a g ⟨ha,hat,hg⟩
      cases he : (orderBy Grupo.prioridade
          (a.gruposAtivos s.db.grupos s.db.alunosGrupos)).head?.isSome with
      | true =>
        refine ⟨[.consulta,.consulta,.consulta],_,?_,.semHorario⟩
        simp [inscreveMatricula,Prog.exec_bind,ha,hat,Aluno.estaEmAlgumGrupo,he,
          Aluno.primeiroGrupoAtivoComFilaAtiva,hg]
      | false =>
        refine ⟨[.consulta,.consulta],_,?_,.semGrupo⟩
        simp [inscreveMatricula,Prog.exec_bind,ha,hat,Aluno.estaEmAlgumGrupo,he]
    · exact ⟨[.consulta],_,by simp [inscreveMatricula,Prog.exec_bind,ha,hat],.inativo⟩

/-- A request that finds nobody to enrol is turned away. -/
theorem recusa_inscrever {u : Sessao} {m : Option String} {s : World} {r : Rodada}
    (hr : s.db.rodadas.rows.head?=some r)
    (h : Aberta s.db u → ∀ a g,¬Escolhe s.db m a g) :
    ∃ log x,(inscrever u m).exec s=⟨log,.ok x,s⟩ ∧ Recusa x := by
  by_cases hu : Aberta s.db u
  · obtain ⟨log,x,hx,hR⟩ := recusa_matricula (h hu)
    obtain ⟨r',hr',hu⟩ := hu
    obtain rfl : r=r' := by
      rw [hr] at hr'
      exact Option.some.inj hr'
    refine ⟨.consulta::log,x,?_,hR⟩
    by_cases hg : r.inscricaoGuest=some true
    · simp [inscrever,Prog.exec_bind,hr,hg,hx]
    · obtain ⟨hn,hm⟩ := hu.resolve_left hg
      simp [inscrever,Prog.exec_bind,hr,hn,hm,hx]
  · have hg : r.inscricaoGuest≠some true := fun hg => hu ⟨r,hr,Or.inl hg⟩
    by_cases hn : u.usuario=none
    · exact ⟨[.consulta],_,by simp [inscrever,Prog.exec_bind,hr,hg,hn],.entrar⟩
    · have hm : Ability.manageInscricao u=false := by
        rw [← Bool.not_eq_true]
        exact fun hm => hu ⟨r,hr,Or.inr ⟨hn,hm⟩⟩
      exact ⟨[.consulta],_,by simp [inscrever,Prog.exec_bind,hr,hg,hn,hm],.semPermissao⟩

/-- Every other one is turned away. -/
theorem exec_inscrever_none {u : Sessao} {m : Option String} {s : World}
    (h : Aberta s.db u → ∀ a g,¬Escolhe s.db m a g) :
    ((inscrever u m).exec s).state=s ∧
      ∀ a c,((inscrever u m).exec s).result≠.ok (.inscrito a c) := by
  cases hr : s.db.rodadas.rows.head? with
  | none => simp [inscrever,Prog.exec_bind,hr]
  | some r =>
    obtain ⟨log,x,hx,hR⟩ := recusa_inscrever hr h
    rw [hx]
    exact ⟨rfl,fun a c he => hR.ne_inscrito a c (Except.ok.inj he)⟩

/-- The answer to somebody already queued: their turn, the estimate, or an exception when the fila
has no attendance time to multiply. -/
theorem exec_jaNaFila {v : Vaga} (f : Fila) {p : Int} (hp : v.posicao=some p) (s : World) :
    ((jaNaFila v f).exec s).state=s ∧
    ((p=f.posicao ∧ ((jaNaFila v f).exec s).result=.ok (.json 405 "Já está na sua vez!")) ∨
    (p≠f.posicao ∧ ∃ q,f.tempoatendimento=some (.num q) ∧ ((jaNaFila v f).exec s).result=
      .ok (.json 405 (mensagemNaFila (Vaga.codigo (some f) (some p))
        (((p-f.posicao : Int) : ℚ)*q)))) ∨
    (p≠f.posicao ∧ ¬f.comTempo ∧ ∃ e,((jaNaFila v f).exec s).result=.error e)) := by
  unfold jaNaFila
  by_cases he : p=f.posicao
  · simp [hp,he]
  · rw [if_neg (by simpa [hp] using he)]
    cases ht : f.tempoatendimento with
    | none => simp [Prog.exec_bind,hp,he,Fila.comTempo,ht]
    | some t =>
      cases t with
      | num q => simp [Prog.exec_bind,hp,he,Dbl.scale]
      | inf n =>
        have hk : p-f.posicao≠0 := by omega
        simp [Prog.exec_bind,hp,he,Fila.comTempo,ht,Dbl.scale,hk]
      | nan => simp [Prog.exec_bind,hp,he,Fila.comTempo,ht,Dbl.scale]

/-- A live vaga makes the enrolment a question about it. -/
theorem exec_inscreve_some {a : Aluno} {g : Grupo} {s : World}
    (h : s.db.core.proximaVaga a≠none) : ((inscreve a g).exec s).state=s ∧
      ∀ b c,((inscreve a g).exec s).result≠.ok (.inscrito b c) := by
  obtain ⟨log,he,-⟩ := reads_proximaVaga a s
  dsimp only at he
  rw [← acha_core,ne_eq,Option.map_eq_none_iff] at h
  cases hx : a.acha (Aluno.filasAtivas (s.db.colegiadoDe a.colegiadoId) s.db) s.db with
  | none => exact absurd hx h
  | some x =>
    rw [hx] at he
    obtain ⟨p,hp⟩ := Db.posicao_of_proximaVaga hx
    obtain ⟨hs,hcase⟩ := exec_jaNaFila x.2 hp s
    have hj : ((jaNaFila x.1 x.2).exec s).state=s ∧
        ∀ b c,((jaNaFila x.1 x.2).exec s).result≠.ok (.inscrito b c) := by
      refine ⟨hs,fun b c => ?_⟩
      rcases hcase with ⟨-,hr⟩ | ⟨-,q,-,hr⟩ | ⟨-,-,e,hr⟩ <;> simp [hr]
    simpa [inscreve,Prog.exec_bind,he] using hj

/-- Without one the vaga is created, if the grupo's fila exists. -/
theorem exec_inscreve_none {a : Aluno} {g : Grupo} {s : World}
    (h : s.db.core.proximaVaga a=none) : (∃ c,((inscreve a g).exec s).result=.ok (.inscrito a c)) ∧
      ((inscreve a g).exec s).state.db=match s.db.filaDe g.filaId with
        | none => s.db
        | some f => s.db.insereVaga a.id (some f.id) (s.db.maiorPosicao (some f.id)) (s.clock 0) := by
  obtain ⟨log,he,-⟩ := reads_proximaVaga a s
  dsimp only at he
  rw [← acha_core,Option.map_eq_none_iff] at h
  rw [h] at he
  cases hf : s.db.filaDe g.filaId <;>
    simp [inscreve,Vaga.create,Prog.exec_bind,he,hf]

/-- The second enrolment of the aluno finds the vaga of the first. -/
def Reencontra (d : Db) (a : Aluno) (g : Grupo) : Prop :=
  ∀ f,d.filaDe g.filaId=some f → f.ativo=some true ∧
    f.colegiadoId=d.colegiadoDe a.colegiadoId ∧ f.posicao≤(d.maiorPosicao (some f.id) : Int)+1

theorem inscreve_of_inscrito {u : Sessao} {m : Option String} {s : World} {a : Aluno} {c : String}
    (h : ((inscrever u m).exec s).result=.ok (.inscrito a c)) :
    ∃ g,Aberta s.db u ∧ Escolhe s.db m a g ∧ s.db.core.proximaVaga a=none ∧
      ((inscrever u m).exec s).state=((inscreve a g).exec s).state := by
  by_cases hu : Aberta s.db u ∧ ∃ b g,Escolhe s.db m b g
  · obtain ⟨hu,b,g,hb⟩ := hu
    obtain ⟨log,he⟩ := exec_inscrever hu hb
    rw [he] at h ⊢
    by_cases hp : s.db.core.proximaVaga b=none
    · obtain ⟨⟨c',hc⟩,-⟩ := exec_inscreve_none (g := g) hp
      obtain rfl : b=a := by
        rw [hc] at h
        simp at h
        exact h.1
      exact ⟨g,hu,hb,hp,rfl⟩
    · exact absurd h ((exec_inscreve_some hp).2 a c)
  · have hn := exec_inscrever_none (u := u) (m := m) (s := s)
      (fun hu' b g hb => hu ⟨hu',b,g,hb⟩)
    exact absurd h (hn.2 a c)

private theorem reencontra_iff {d : Db} {a : Aluno} {g : Grupo} {f : Fila} {t : ℚ}
    (hf : d.filaDe g.filaId=some f) (hp : d.core.proximaVaga a=none) :
    Reencontra d a g ↔
      (d.insereVaga a.id (some f.id) (d.maiorPosicao (some f.id)) t).core.proximaVaga a≠none := by
  obtain ⟨i,-,hfi⟩ := Option.bind_eq_some_iff.mp hf
  obtain rfl : f.id=i := Table.key_of_find hfi
  have hfc : d.core.filas.find f.toFilaBase.id=some f.toFilaBase := by
    rw [Db.findFila_core,hfi]
    rfl
  have hn := (d.core.proximaVaga_eq_none_iff a).mp hp
  have hR : Reencontra d a g ↔ f.ativo=some true ∧ f.colegiadoId=d.colegiadoDe a.colegiadoId ∧
      f.posicao≤(d.maiorPosicao (some f.id) : Int)+1 :=
    ⟨fun h => h f hf,fun h f' hf' => by rw [hf] at hf'; cases hf'; exact h⟩
  rw [hR,Db.core_insereVaga,ne_eq,Core.proximaVaga_eq_none_iff,not_forall]
  simp only [not_not,Core.viva_insereVaga hfc,hn,false_or,exists_eq_left]
  simp [Db.colegiadoDe_core]

/-- Enrolling again right after a 200 leaves the vagas alone exactly when the grupo's fila is
missing, or is active, of the aluno's colegiado and not past its next position. -/
theorem inscrever_repetida (u : Sessao) (m : Option String) (s : World) (a : Aluno) (c : String)
    (h : ((inscrever u m).exec s).result=.ok (.inscrito a c)) :
    ∃ g,a.primeiroGrupo s.db.grupos s.db.alunosGrupos=some g ∧
      ((∀ u',((inscrever u' m).exec ((inscrever u m).exec s).state).state.db.vagas=
        ((inscrever u m).exec s).state.db.vagas) ↔ Reencontra s.db a g) := by
  obtain ⟨g,hu,hag,hp,hs⟩ := inscreve_of_inscrito h
  refine ⟨g,hag.2.2,?_⟩
  have hd := (exec_inscreve_none (g := g) hp).2
  rw [hs]
  generalize ((inscreve a g).exec s).state=s' at hd
  cases hf : s.db.filaDe g.filaId with
  | none =>
    rw [hf] at hd
    dsimp only at hd
    refine ⟨fun _ f hf' => by simp [hf] at hf',fun _ u' => ?_⟩
    by_cases hu' : Aberta s'.db u'
    · obtain ⟨log,he⟩ := exec_inscrever hu' (hd ▸ hag : Escolhe s'.db m a g)
      rw [he,(exec_inscreve_none (hd ▸ hp)).2,hd,hf]
    · rw [(exec_inscrever_none (fun hu'' => absurd hu'' hu')).1]
  | some f =>
    rw [hf] at hd
    dsimp only at hd
    rw [reencontra_iff hf hp,← hd]
    have hag' : Escolhe s'.db m a g := hd ▸ hag
    constructor
    · intro h2 hp'
      obtain ⟨log,he⟩ := exec_inscrever (hd ▸ hu : Aberta s'.db u) hag'
      have hv := h2 u
      rw [he,(exec_inscreve_none hp').2] at hv
      have hf' : s'.db.filaDe g.filaId=some f := by rw [hd]; exact hf
      rw [hf'] at hv
      have hl := congrArg (fun t => t.rows.length) hv
      simp [Db.insereVaga] at hl
    · intro hp' u'
      by_cases hu' : Aberta s'.db u'
      · obtain ⟨log,he⟩ := exec_inscrever hu' hag'
        rw [he,(exec_inscreve_some hp').1]
      · rw [(exec_inscrever_none (fun hu'' => absurd hu'' hu')).1]

/-- In a new fila the second enrolment finds the vaga of the first. -/
theorem inscrever_repetida_cenario :
    ((inscrever ⟨none,none⟩ (some "a")).exec (Cenario.world Cenario.nova .empty)).result=
      .ok (.inscrito (Cenario.aluno 1 "a") "_1") ∧
    ∀ u',((inscrever u' (some "a")).exec ((inscrever ⟨none,none⟩ (some "a")).exec
        (Cenario.world Cenario.nova .empty)).state).state.db.vagas=
      ((inscrever ⟨none,none⟩ (some "a")).exec
        (Cenario.world Cenario.nova .empty)).state.db.vagas := by
  refine ⟨by rfl,?_⟩
  obtain ⟨g,hg,hiff⟩ := inscrever_repetida ⟨none,none⟩ (some "a")
    (Cenario.world Cenario.nova .empty) (Cenario.aluno 1 "a") "_1" (by rfl)
  refine hiff.mpr (fun f hf => ?_)
  have hd : ∀ g ∈ (Cenario.aluno 1 "a").primeiroGrupo (Cenario.world Cenario.nova .empty).db.grupos
        (Cenario.world Cenario.nova .empty).db.alunosGrupos,
      ∀ f ∈ (Cenario.world Cenario.nova .empty).db.filaDe g.filaId,f.ativo=some true ∧
        f.colegiadoId=(Cenario.world Cenario.nova .empty).db.colegiadoDe (some 1) ∧
        f.posicao≤((Cenario.world Cenario.nova .empty).db.maiorPosicao (some f.id) : Int)+1 := by
    decide +kernel
  exact hd g hg f hf

/-- The grupo is active and its fila is not: the aluno enrols twice. -/
theorem inscrever_repetida_inativa :
    ((inscrever ⟨none,none⟩ (some "a")).exec (Cenario.world Cenario.inativa .empty)).result=
      .ok (.inscrito (Cenario.aluno 1 "a") "_1") ∧
    ((inscrever ⟨none,none⟩ (some "a")).exec ((inscrever ⟨none,none⟩ (some "a")).exec
      (Cenario.world Cenario.inativa .empty)).state).state.db.vagas≠
    ((inscrever ⟨none,none⟩ (some "a")).exec
      (Cenario.world Cenario.inativa .empty)).state.db.vagas :=
  ⟨by rfl,by decide +kernel⟩

end TelaController

end Sisfila
