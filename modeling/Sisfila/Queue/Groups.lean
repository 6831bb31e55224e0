import Sisfila.Queue.Run

namespace Sisfila

namespace Db

/-- The grupo has a fila, and the fila is active. -/
def filaAtiva (d : Db) (g : Grupo) : Bool :=
  match d.filaDe g.filaId with
  | some f => f.ativo==some true
  | none => false

/-- An active grupo of the aluno. -/
def Participa (d : Db) (a : Aluno) (g : Grupo) : Prop :=
  g ∈ d.grupos.rows ∧ (a.id,g.id) ∈ d.alunosGrupos ∧ g.ativo=some true

/-- What the name `primeiro_grupo_ativo_com_fila_ativa` asks for: of the aluno's active grupos with
an active fila, the one of smallest prioridade; nil when there is none. -/
def PrimeiroComFilaAtiva (d : Db) (a : Aluno) : Option Grupo → Prop
  | some g => (d.Participa a g ∧ d.filaAtiva g=true) ∧
      ∀ h,d.Participa a h → d.filaAtiva h=true → NullsFirst g.prioridade h.prioridade
  | none => ∀ h,d.Participa a h → d.filaAtiva h=false

/-- A grupo whose fila is inactive or gone comes only after one whose fila is active. -/
def InativasDepois (d : Db) (a : Aluno) : Prop :=
  ∀ g,d.Participa a g → g.filaId.isSome=true → d.filaAtiva g=false →
    ∃ h,d.Participa a h ∧ d.filaAtiva h=true ∧ Before Grupo.prioridade h g

end Db

variable {d : Db} {a : Aluno} {g : Grupo}

theorem Db.filaId_of_filaAtiva (h : d.filaAtiva g=true) : g.filaId.isSome=true := by
  cases hg : g.filaId with
  | none => simp [Db.filaAtiva,Db.filaDe,hg] at h
  | some i => rfl

namespace Aluno

/-- The rows the query of `primeiro_grupo_ativo_com_fila_ativa` selects. -/
def comFila (a : Aluno) (d : Db) : List Grupo :=
  (a.gruposAtivos d.grupos d.alunosGrupos).filter (fun g => g.filaId.isSome)

theorem mem_comFila : g ∈ a.comFila d ↔ d.Participa a g ∧ g.filaId.isSome=true := by
  simp only [comFila,gruposAtivos,List.mem_filter,Bool.and_eq_true,decide_eq_true_eq,beq_iff_eq,
    Db.Participa]

theorem comFila_ascending (a : Aluno) (d : Db) :
    (a.comFila d).Pairwise (fun g h => Row.key g<Row.key h) :=
  (d.grupos.ascending.filter _).filter _

/-- The second filter drops nothing: every selected grupo is active. -/
theorem primeiroGrupo_eq (a : Aluno) (d : Db) :
    a.primeiroGrupo d.grupos d.alunosGrupos=(orderBy Grupo.prioridade (a.comFila d)).head? := by
  have h : (orderBy Grupo.prioridade (a.comFila d)).filter (fun g => g.ativo==some true)=
      orderBy Grupo.prioridade (a.comFila d) := by
    rw [List.filter_eq_self]
    intro g hg
    have hp := (mem_comFila.mp ((mem_orderBy _ _ _).mp hg)).1
    exact beq_iff_eq.mpr hp.2.2
  exact congrArg List.head? h

/-- The result is nil when the query selects nothing, and otherwise the first of its rows. -/
theorem primeiroGrupo_spec (a : Aluno) (d : Db) :
    (a.primeiroGrupo d.grupos d.alunosGrupos=none ∧ a.comFila d=[]) ∨
    ∃ g,a.primeiroGrupo d.grupos d.alunosGrupos=some g ∧ g ∈ a.comFila d ∧
      ∀ h ∈ a.comFila d,h≠g → Before Grupo.prioridade g h := by
  rw [primeiroGrupo_eq]
  have hs := orderBy_before Grupo.prioridade (a.comFila_ascending d)
  have hm := mem_orderBy Grupo.prioridade (a.comFila d)
  cases ho : orderBy Grupo.prioridade (a.comFila d) with
  | nil =>
    refine Or.inl ⟨rfl,List.eq_nil_iff_forall_not_mem.mpr ?_⟩
    intro g hg
    have hg' := (hm g).mpr hg
    rw [ho] at hg'
    simp at hg'
  | cons g gs =>
    rw [ho] at hs hm
    refine Or.inr ⟨g,rfl,(hm g).mp List.mem_cons_self,?_⟩
    intro h hh hne
    have ht := (List.mem_cons.mp ((hm h).mpr hh)).resolve_left hne
    exact (List.pairwise_cons.mp hs).1 h ht

end Aluno

/-- `Aluno#primeiro_grupo_ativo_com_fila_ativa` is right exactly for the alunos none of whose grupos
with an inactive or missing fila comes first. -/
theorem primeiroGrupo_comFilaAtiva (s : World) (a : Aluno) :
    (∃ r,(a.primeiroGrupoAtivoComFilaAtiva.exec s).result=.ok r ∧ s.db.PrimeiroComFilaAtiva a r) ↔
      s.db.InativasDepois a := by
  have hx : (a.primeiroGrupoAtivoComFilaAtiva.exec s).result=
      .ok (a.primeiroGrupo s.db.grupos s.db.alunosGrupos) := rfl
  have hr : (∃ r,(a.primeiroGrupoAtivoComFilaAtiva.exec s).result=.ok r ∧
      s.db.PrimeiroComFilaAtiva a r) ↔
      s.db.PrimeiroComFilaAtiva a (a.primeiroGrupo s.db.grupos s.db.alunosGrupos) := by
    rw [hx]
    constructor
    · rintro ⟨r,he,hp⟩
      rw [Except.ok.inj he]
      exact hp
    · exact fun hp => ⟨_,rfl,hp⟩
  rw [hr]
  rcases a.primeiroGrupo_spec s.db with ⟨hn,hv⟩ | ⟨g,hg,hm,hmin⟩
  · -- nothing selected, so no grupo of the aluno has a fila at all
    rw [hn]
    have hvazio : ∀ h,s.db.Participa a h → h.filaId.isSome≠true := by
      intro h hp hf
      have hh := Aluno.mem_comFila.mpr ⟨hp,hf⟩
      rw [hv] at hh
      simp at hh
    refine ⟨fun _ h hp hf => absurd hf (hvazio h hp),fun _ h hp => ?_⟩
    rw [← Bool.not_eq_true]
    exact fun hf => hvazio h hp (Db.filaId_of_filaAtiva hf)
  · rw [hg]
    obtain ⟨hpg,hfg⟩ := Aluno.mem_comFila.mp hm
    constructor
    · rintro ⟨⟨-,hga⟩,-⟩ h hp hf hi
      refine ⟨g,hpg,hga,hmin h (Aluno.mem_comFila.mpr ⟨hp,hf⟩) ?_⟩
      rintro rfl
      rw [hga] at hi
      cases hi
    · intro hd
      have hga : s.db.filaAtiva g=true := by
        by_contra hne
        obtain ⟨h,hp,ha,hb⟩ := hd g hpg hfg (Bool.not_eq_true _ ▸ hne)
        have hhg : h≠g := by
          rintro rfl
          exact hne ha
        exact (hmin h (Aluno.mem_comFila.mpr ⟨hp,Db.filaId_of_filaAtiva ha⟩) hhg).asymm hb
      refine ⟨⟨hpg,hga⟩,fun h hp ha => ?_⟩
      by_cases he : h=g
      · rw [he]
        rcases NullsFirst.total g.prioridade g.prioridade with h | h <;> exact h
      · exact (hmin h (Aluno.mem_comFila.mpr ⟨hp,Db.filaId_of_filaAtiva ha⟩) he).1

/-- The only grupo of aluno `a` leads to a fila that is switched off. -/
theorem primeiroGrupo_filaInativa :
    ¬∃ r,((Cenario.aluno 1 "a").primeiroGrupoAtivoComFilaAtiva.exec
        (Cenario.world Cenario.inativa .empty)).result=.ok r ∧
      (Cenario.db Cenario.inativa .empty).PrimeiroComFilaAtiva (Cenario.aluno 1 "a") r := by
  rintro ⟨r,hr,hp⟩
  have hg : (Cenario.aluno 1 "a").primeiroGrupo (Cenario.db Cenario.inativa .empty).grupos
      (Cenario.db Cenario.inativa .empty).alunosGrupos=
      some { id := 1, prioridade := some 1, filaId := some 1 } := by decide
  have hx : (Except.ok r : Except Erro (Option Grupo))=.ok _ := hr.symm
  have he : r=(Cenario.aluno 1 "a").primeiroGrupo (Cenario.db Cenario.inativa .empty).grupos
      (Cenario.db Cenario.inativa .empty).alunosGrupos := Except.ok.inj hx
  rw [he,hg] at hp
  exact absurd hp.1.2 (by decide)

end Sisfila
