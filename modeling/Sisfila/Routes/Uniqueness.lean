import Sisfila.Framework.Apart
import Sisfila.Import.Result
import Sisfila.Routes.Lists

namespace Sisfila

/-! The import touches the alunos and the join rows only. -/

section importacao

variable {α β : Type}

/-- After a part that writes nothing, the rest runs in the same state or not at all. -/
theorem ReadOnly.state_bind {p : Req α} (hp : p.ReadOnly) (f : α → Req β) (s : World) :
    ((p >>= f).exec s).state=s ∨ ∃ a,((p >>= f).exec s).state=((f a).exec s).state := by
  have hs := hp.exec_state s
  rw [Prog.exec_bind]
  cases hr : (p.exec s).result with
  | ok a =>
    refine Or.inr ⟨a,?_⟩
    simp [Outcome.andThen,hr,hs]
  | error e =>
    refine Or.inl ?_
    simp [Outcome.andThen,hr,hs]

theorem readOnly_achaOpcional {ρ : Type} (q : Nat → Db → Option ρ) (i : Option Nat) :
    (ImporterController.achaOpcional q i).ReadOnly := by
  cases i with
  | none => trivial
  | some i => exact (readOnly_acha _).bind (fun _ => trivial)

/-- What `POST /importar` leaves: nothing new, a grupo without its alunos, or the lines. -/
theorem ImporterController.db_import (u : Sessao) (t : String) (g c : Option Nat) (s : World) :
    ((import_ u t g c).exec s).state.db=s.db ∨ ∃ grupo colegiado,
      ((import_ u t g c).exec s).state.db=esvaziado grupo s.db ∨
      ((import_ u t g c).exec s).state.db=
        importado grupo colegiado (esvaziado grupo s.db) (registros t) := by
  unfold import_
  rcases ReadOnly.state_bind (readOnly_authorize u) _ s with h | ⟨_,h⟩ <;> rw [h]
  · exact Or.inl rfl
  rcases ReadOnly.state_bind (readOnly_achaOpcional (fun i d => d.grupos.find i) g) _ s
    with h | ⟨grupo,h⟩ <;> rw [h]
  · exact Or.inl rfl
  rcases ReadOnly.state_bind (readOnly_achaOpcional (fun i d => d.colegiados.find i) c) _ s
    with h | ⟨colegiado,h⟩ <;> rw [h]
  · exact Or.inl rfl
  refine Or.inr ⟨grupo,colegiado,?_⟩
  have he : ((importaEscalonamento t grupo colegiado >>= fun saida =>
      pure (Resposta.importado saida)).exec s).state=
        ((importaEscalonamento t grupo colegiado).exec s).state := by
    rw [Prog.exec_bind]
    cases hr : ((importaEscalonamento t grupo colegiado).exec s).result <;>
      simp [Outcome.andThen,hr]
  rw [he]
  cases hok : ((importaEscalonamento t grupo colegiado).exec s).ok with
  | false => exact Or.inl (db_importaEscalonamento_of_error grupo colegiado hok)
  | true => exact Or.inr ((importaEscalonamento_iff grupo colegiado t s).2 hok)

theorem ImporterController.filas_vagas_import (u : Sessao) (t : String) (g c : Option Nat)
    (s : World) : ((import_ u t g c).exec s).state.db.filas=s.db.filas ∧
      ((import_ u t g c).exec s).state.db.vagas=s.db.vagas := by
  have hv : ∀ grupo : Option Grupo,(esvaziado grupo s.db).filas=s.db.filas ∧
      (esvaziado grupo s.db).vagas=s.db.vagas := by
    intro grupo
    cases grupo <;> exact ⟨rfl,rfl⟩
  rcases db_import u t g c s with h | ⟨grupo,colegiado,h | h⟩ <;> rw [h]
  · exact ⟨rfl,rfl⟩
  · exact hv grupo
  · exact hv grupo

end importacao

/-! The two `acts_as_list` columns. -/

/-- The routes that save or destroy a row of a list. -/
def Rota.salvaLista : Rota → Bool
  | .filasCreate _ _ | .filasUpdate _ _ _ | .filasDestroy _ _ => true
  | .vagasCreate _ _ | .vagasUpdate _ _ _ | .vagasDestroy _ _ => true
  | _ => false

namespace Core

/-- No two vagas of a fila have one position, and no two filas one priority. -/
structure Listas (k : Core) : Prop where
  posicoes : ∀ f,Apart VagaBase.posicao (k.vagas.rows.filter (naFila f))
  prioridades : Apart FilaBase.prioridade k.filas.rows

namespace Listas

variable {k : Core}

/-- An UPDATE of the filas that leaves the priorities alone. -/
theorem filas (h : k.Listas) (i : Nat) (g : FilaBase → FilaBase)
    (hk : ∀ f,Row.key (g f)=Row.key f) (hg : ∀ f,(g f).prioridade=f.prioridade) :
    { k with filas := k.filas.modify i g hk }.Listas := by
  refine ⟨h.posicoes,?_⟩
  have hr : Apart FilaBase.prioridade (k.filas.rows.map (fun f => if Row.key f=i then g f else f)) := by
    refine h.prioridades.map_of_pos _ (fun f => ?_)
    split_ifs
    · exact hg f
    · rfl
  exact hr

theorem incrementa (h : k.Listas) (i : Nat) (n : Int) : (k.incrementa i n).Listas :=
  h.filas i _ _ (fun _ => rfl)

theorem ativaFila (h : k.Listas) (i : Nat) (b : Option Bool) : (k.ativaFila i b).Listas :=
  h.filas i _ _ (fun _ => rfl)

theorem ocupa (h : k.Listas) (m : Mesa) (v : Option Nat) (t : ℚ) : (k.ocupa m v t).Listas :=
  ⟨h.posicoes,h.prioridades⟩

/-- A new vaga goes below the bottom of its list. -/
theorem insereVaga (h : k.Listas) (a f : Nat) (t : ℚ) :
    (k.insereVaga a f (k.maiorPosicao f) t).Listas := by
  refine ⟨fun g => ?_,h.prioridades⟩
  rw [rows_insereVaga,List.filter_append,List.filter_singleton]
  cases hg : naFila g (k.novaVaga a f (k.maiorPosicao f) t) with
  | true =>
    obtain rfl : some f=g := beq_iff_eq.mp hg
    refine (h.posicoes (some f)).append (fun w hw he => ?_)
    have hb : ((k.maiorPosicao f+1 : Nat) : Int)≤(k.maiorPosicao f : Int) := Table.le_bottom hw he
    omega
  | false =>
    rw [cond_false,List.append_nil]
    exact h.posicoes g

theorem chama (h : k.Listas) {f : FilaBase} {n : Int} {mesa : Option Nat} {ok : Bool}
    {es : List Evento} {k' : Core} (hc : k.Chama f n mesa ok es k') : k'.Listas := by
  cases hc with
  | falha => exact h.incrementa f.id n
  | semMesa => exact h.incrementa f.id n
  | feita m t _ => exact (h.incrementa f.id n).ocupa m _ t

theorem esvazia (h : k.Listas) {mesa : Option Nat} {es : List Evento} {k' : Core}
    (he : k.Esvazia mesa es k') : k'.Listas := by
  cases he with
  | nada => exact h
  | feita m t _ => exact h.ocupa m none t

theorem passo (h : k.Listas) {r : Requisicao} {ok : Bool} {es : List Evento} {k' : Core}
    (hp : k.Passo r ok es k') : k'.Listas := by
  cases hp with
  | recusa => exact h
  | naoInscreve => exact h
  | inscreve s m a g f t => exact h.insereVaga a.id f.id t
  | filasFim s f hf hn he => exact h.esvazia he
  | filasProximo s f hf hn hc => exact h.chama hc
  | filasAnterior s f hf hc => exact h.chama hc
  | edita => exact h
  | ativa s i b => exact h.ativaFila i b
  | semMesa => exact h
  | colegiadosFim s c m hm hf he => exact h.esvazia he
  | colegiadosProximo s c m f hm hf hc => exact h.chama hc

/-- A route that leaves `acts_as_list` alone keeps both lists apart. -/
theorem muda (h : k.Listas) {r : Rota} (hr : r.salvaLista=false) {k' : Core} (hm : k.Muda r k') :
    k'.Listas := by
  cases hm with
  | nada => exact h
  | requisicao r hp => exact h.passo hp
  | filasEsvaziaMesa s i he => exact h.esvazia he
  | colegiadosEsvaziaMesa s i he => exact h.esvazia he
  | filasUpdate s p f hf => cases hr
  | filasDestroy s f hf => cases hr
  | vagasUpdate s p v hv hp => cases hr
  | vagasDestroy s v hv ha => cases hr
  | _ => exact ⟨h.posicoes,h.prioridades⟩

end Listas

end Core

namespace Db

variable {d : Db}

/-- The two lists as the gem sees them. -/
theorem listas_iff : d.core.Listas ↔ (∀ f,Apart Listed.pos (d.vagas.rows.filter (naFila f))) ∧
    Apart Listed.pos (d.filas.rows.filter todas) := by
  have hv : ∀ f,Apart VagaBase.posicao (d.core.vagas.rows.filter (Core.naFila f)) ↔
      Apart Listed.pos (d.vagas.rows.filter (naFila f)) :=
    fun f => Table.apart_map_iff (t := d.vagas) (f := Vaga.toVagaBase) (fun _ => rfl)
      (fun _ => rfl) (fun _ => rfl)
  have hf : Apart FilaBase.prioridade (d.core.filas.rows.filter todas) ↔
      Apart Listed.pos (d.filas.rows.filter todas) :=
    Table.apart_map_iff (t := d.filas) (f := Fila.toFilaBase) (fun _ => rfl) (fun _ => rfl)
      (fun _ => rfl)
  have ht : d.core.filas.rows.filter todas=d.core.filas.rows :=
    List.filter_eq_self.mpr (fun _ _ => rfl)
  rw [ht] at hf
  constructor
  · exact fun h => ⟨fun f => (hv f).mp (h.posicoes f),hf.mp h.prioridades⟩
  · exact fun h => ⟨fun f => (hv f).mpr (h.1 f),hf.mpr h.2⟩

theorem listas_atualizaVaga (h : d.core.Listas) (i : Nat) (p : VagaParams) :
    (d.atualizaVaga i p).core.Listas := by
  obtain ⟨hp,hf⟩ := listas_iff.mp h
  exact listas_iff.mpr ⟨fun f => Table.apart_modify (hp f) i p.atribui (fun _ => rfl)
    (fun _ => rfl) (fun _ => rfl),hf⟩

section vagas

private theorem naFila_alheia {f g : Option Nat} (h : g≠f) (w : Vaga) (hw : naFila g w=true) :
    naFila f w=false := by
  unfold naFila at *
  rw [beq_iff_eq.mp hw]
  exact beq_eq_false_iff_ne.mpr h

variable [ActsAsList Vaga] [LawfulActsAsList Vaga]

theorem listas_setListPosition (h : d.core.Listas) {v : Vaga} (hv : v ∈ d.vagas.rows)
    (q : Option Int) : (d.setListPosition v q).core.Listas := by
  obtain ⟨hp,hf⟩ := listas_iff.mp h
  refine listas_iff.mpr ⟨fun f => ?_,hf⟩
  have hs : naFila v.filaId v=true := beq_self_eq_true _
  by_cases hvf : v.filaId=f
  · subst hvf
    exact ActsAsList.apart_save (fun _ _ => rfl) hv hs (hp _) q
  · have hd := ActsAsList.filter_save (fun _ _ => rfl) hv hs (hp _) q (T := naFila f)
      (fun _ _ => rfl) (naFila_alheia hvf)
    exact Eq.mpr (congrArg (Apart Listed.pos) hd) (hp f)

theorem listas_apagaVaga (h : d.core.Listas) {v : Vaga} (hv : v ∈ d.vagas.rows) :
    (d.apagaVaga v).core.Listas := by
  obtain ⟨hp,hf⟩ := listas_iff.mp h
  refine listas_iff.mpr ⟨fun f => ?_,hf⟩
  have hs : naFila v.filaId v=true := beq_self_eq_true _
  by_cases hvf : v.filaId=f
  · subst hvf
    exact ActsAsList.apart_destroy (fun _ _ => rfl) hv hs (hp _)
  · exact (hp f).sublist (ActsAsList.filter_destroy_sublist (fun _ _ => rfl) hv hs (hp _)
      (fun _ _ => rfl) (naFila_alheia hvf))

end vagas

section filas

variable [ActsAsList Fila] [LawfulActsAsList Fila]

theorem listas_atualizaFila (h : d.core.Listas) {f : Fila} (hf : f ∈ d.filas.rows)
    (p : FilaParams) : (d.atualizaFila f p).core.Listas := by
  obtain ⟨hv,hp⟩ := listas_iff.mp h
  have hc := Table.apart_modify hp f.id p.atribui (fun _ => rfl) (fun _ => rfl) (fun _ => rfl)
  have hm : p.atribui f ∈ (d.filas.modify f.id p.atribui (fun _ => rfl)).rows :=
    List.mem_map.mpr ⟨f,hf,if_pos rfl⟩
  refine listas_iff.mpr ⟨hv,?_⟩
  unfold atualizaFila
  cases p.prioridade with
  | none => exact hc
  | some q => exact ActsAsList.apart_save (fun _ _ => rfl) hm rfl hc q

theorem listas_apagaFila (h : d.core.Listas) {f : Fila} (hf : f ∈ d.filas.rows) :
    (d.apagaFila f).core.Listas := by
  obtain ⟨hv,hp⟩ := listas_iff.mp h
  exact listas_iff.mpr ⟨hv,ActsAsList.apart_destroy (fun _ _ => rfl) hf rfl hp⟩

end filas

end Db

/-- The other routes are the same program whatever the gem does. -/
theorem Rota.prog_eq [gf : ActsAsList Fila] [gv : ActsAsList Vaga] {r : Rota}
    (hr : r.salvaLista=false) :
    @Rota.prog gf gv r=@Rota.prog Table.actsAsList Table.actsAsList r := by
  cases r with
  | requisicao q => cases q <;> rfl
  | filasCreate u p => cases hr
  | filasUpdate u i p => cases hr
  | filasDestroy u i => cases hr
  | vagasCreate u p => cases hr
  | vagasUpdate u i p => cases hr
  | vagasDestroy u i => cases hr
  | _ => rfl

section gem

variable {s : World}

section filas

variable [ActsAsList Fila]

theorem listas_filasCreate (h : s.db.core.Listas) (u : Sessao) (p : FilaParams) :
    Visto (fun _ _ k => k.Listas) (FilasController.create u p) s :=
  visto_filasCreate s u (fun _ => h) p

variable [LawfulActsAsList Fila]

theorem listas_filasUpdate (h : s.db.core.Listas) (u : Sessao) (i : Nat) (p : FilaParams) :
    Visto (fun _ _ k => k.Listas) (FilasController.update u i p) s := by
  refine visto_comFiltros (Reads.setFila i) (fun _ => h) (fun f hf => Visto.consulta_bind ?_)
  split
  · unfold FilasController.gravaFila
    split
    · exact h
    · exact Db.listas_atualizaFila h (Table.mem_of_find hf) p
  · exact h

theorem listas_filasDestroy (h : s.db.core.Listas) (u : Sessao) (i : Nat) :
    Visto (fun _ _ k => k.Listas) (FilasController.destroy u i) s := by
  refine visto_comFiltros (Reads.setFila i) (fun _ => h) (fun f _ => ?_)
  refine Visto.reads_bind (Reads.acha _) h (fun g hg => ?_)
  have hm : s.db.filas.find f.id=some g := by
    cases hf : s.db.filas.find f.id <;> simp_all
  exact Db.listas_apagaFila h (Table.mem_of_find hm)

end filas

section vagas

variable [ActsAsList Vaga]

theorem listas_vagasCreate (h : s.db.core.Listas) (u : Sessao) (p : VagaParams) :
    Visto (fun _ _ k => k.Listas) (VagasController.create u p) s :=
  visto_vagasCreate s u (fun _ => h) p

variable [LawfulActsAsList Vaga]

theorem listas_vagasUpdate (h : s.db.core.Listas) (u : Sessao) (i : Nat) (p : VagaParams) :
    Visto (fun _ _ k => k.Listas) (VagasController.update u i p) s := by
  refine visto_comFiltros (Reads.acha _) (fun _ => h) (fun v hv => Visto.consulta_bind ?_)
  split_ifs
  · exact Db.listas_setListPosition (Db.listas_atualizaVaga h v.id p)
      (List.mem_map.mpr ⟨v,Table.mem_of_find hv,if_pos rfl⟩) _
  · exact h

theorem listas_vagasDestroy (h : s.db.core.Listas) (u : Sessao) (i : Nat) :
    Visto (fun _ _ k => k.Listas) (VagasController.destroy u i) s := by
  refine visto_comFiltros (Reads.acha _) (fun _ => h) (fun v _ => Visto.consulta_bind ?_)
  refine Visto.orRaise_bind h (fun _ _ => ?_)
  refine Visto.reads_bind (Reads.acha _) h (fun w hw => ?_)
  have hm : s.db.vagas.find v.id=some w := by
    cases hv : s.db.vagas.find v.id <;> simp_all
  exact Db.listas_apagaVaga h (Table.mem_of_find hm)

end vagas

variable [ActsAsList Fila] [ActsAsList Vaga] [LawfulActsAsList Fila] [LawfulActsAsList Vaga]

/-- Whatever a route does keeps both lists apart. -/
theorem Rota.listas (h : s.db.core.Listas) (r : Rota) : (r.prog.exec s).core.Listas := by
  cases hr : r.salvaLista with
  | true =>
    cases r with
    | filasCreate u p => exact listas_filasCreate h u p
    | filasUpdate u i p => exact listas_filasUpdate h u i p
    | filasDestroy u i => exact listas_filasDestroy h u i
    | vagasCreate u p => exact listas_vagasCreate h u p
    | vagasUpdate u i p => exact listas_vagasUpdate h u i p
    | vagasDestroy u i => exact listas_vagasDestroy h u i
    | _ => cases hr
  | false =>
    rw [Rota.prog_eq hr]
    cases hi : r.importa with
    | false => exact h.muda hr (r.muda s hi)
    | true =>
      cases r with
      | importerImport u t g c =>
        obtain ⟨hf,hv⟩ := ImporterController.filas_vagas_import u t g c s
        refine Db.listas_iff.mpr ?_
        change (∀ f,Apart Listed.pos (((ImporterController.import_ u t g c).exec
          s).state.db.vagas.rows.filter (Db.naFila f))) ∧ Apart Listed.pos
          (((ImporterController.import_ u t g c).exec s).state.db.filas.rows.filter Db.todas)
        rw [hf,hv]
        exact Db.listas_iff.mp h
      | _ => cases hi

end gem

/-- With callbacks that do what `acts_as_list` documents, no number is given twice: whatever
requests come one after another, from whomever, and however they end, no two vagas of a fila get
the same position and no two filas the same priority. -/
theorem listas_semColisao [ActsAsList Fila] [ActsAsList Vaga] [LawfulActsAsList Fila]
    [LawfulActsAsList Vaga] {s₀ s : World} (h₀ : s₀.db.core.Listas)
    (h : Runs Rota.prog (fun _ _ _ => True) s₀ s) : s.db.core.Listas :=
  h.invariant (fun s => s.db.core.Listas) h₀ (fun _ r hi _ => Rota.listas hi r)

/-- The second of three vagas is sent past the end and the first to no place, the third is deleted
and a fourth enrols; the filas change places. -/
theorem listas_semColisao_cenario :
    let s := runAll Rota.prog (Cenario.world Cenario.duas Table.empty)
      [.requisicao (Cenario.inscreve "a"),.requisicao (Cenario.inscreve "b"),
        .requisicao (Cenario.inscreve "c"),
        .vagasUpdate (Cenario.mesa 1) 2 { posicao := some (some 9) },
        .vagasUpdate (Cenario.mesa 1) 1 { posicao := some none },
        .vagasDestroy (Cenario.mesa 1) 3,.requisicao (Cenario.inscreve "a"),
        .filasUpdate (Cenario.mesa 1) 1 { prioridade := some (some 1) }]
    s.db.vagas.rows.map (fun v => (v.id,v.posicao))=[(1,none),(2,some 8),(4,some 9)] ∧
      s.db.filas.rows.map (fun f => f.prioridade)=[some 1,some 2] ∧ s.db.core.Listas := by
  intro s
  refine ⟨by decide +kernel,by decide +kernel,listas_semColisao ⟨?_,by decide⟩
    (Runs.start.append _ (by decide +kernel))⟩
  intro f v hv
  cases hv

/-! `validates_uniqueness_of :matricula` -/

/-- Every matricula, nil included, belongs to one aluno. -/
def Db.MatriculasUnicas (d : Db) : Prop :=
  ∀ a ∈ d.alunos.rows,∀ b ∈ d.alunos.rows,a.matricula=b.matricula → a=b

instance (d : Db) : Decidable d.MatriculasUnicas :=
  inferInstanceAs (Decidable (∀ a ∈ d.alunos.rows,∀ b ∈ d.alunos.rows,_))

namespace Db.MatriculasUnicas

variable {d : Db}

theorem sublist (h : d.MatriculasUnicas) {e : Db} (hs : ∀ a ∈ e.alunos.rows,a ∈ d.alunos.rows) :
    e.MatriculasUnicas := fun a ha b hb => h a (hs a ha) b (hs b hb)

/-- The validation asks all the others. -/
theorem atualizaAluno (h : d.MatriculasUnicas) {a : Aluno} (ha : a ∈ d.alunos.rows)
    {p : AlunoParams} (hv : d.alunoValido (p.atribui a)=true) :
    (d.atualizaAluno a.id p).MatriculasUnicas := by
  have hlivre := ((d.alunoValido_iff (p.atribui a)).mp hv).2
  have hrow : ∀ b ∈ (d.atualizaAluno a.id p).alunos.rows,
      b=p.atribui a ∨ b ∈ d.alunos.rows ∧ b.id≠a.id := by
    intro b hb
    obtain ⟨c,hc,rfl⟩ := List.mem_map.mp hb
    by_cases hk : Row.key c=a.id
    · rw [if_pos hk,d.alunos.key_injective hc ha hk]
      exact Or.inl rfl
    · rw [if_neg hk]
      exact Or.inr ⟨hc,hk⟩
  intro b hb c hc he
  rcases hrow b hb with rfl | ⟨hb,hbk⟩ <;> rcases hrow c hc with rfl | ⟨hc,hck⟩
  · rfl
  · exact absurd he.symm ((hlivre c hc).resolve_left hck)
  · exact absurd he ((hlivre b hb).resolve_left hbk)
  · exact h b hb c hc he

/-- The import creates an aluno only for a matricula nobody has, and renames without touching it. -/
theorem importado (h : d.MatriculasUnicas) (grupo : Option Grupo) (colegiado : Option Colegiado)
    (rs : List (String × String)) :
    (ImporterController.importado grupo colegiado d rs).MatriculasUnicas := by
  obtain ⟨novos,he,-⟩ := ImporterController.estende_comNovos colegiado d (rs.map (fun r => r.1))
  have hall : (ImporterController.comNovos colegiado d
      (rs.map (fun r => r.1))).MatriculasUnicas := by
    intro a ha b hb hm
    rw [he.rows,List.mem_append] at ha hb
    rcases ha with ha | ha <;> rcases hb with hb | hb
    · exact h a ha b hb hm
    · exact absurd hm (he.alheia b hb a ha)
    · exact absurd hm.symm (he.alheia a ha b hb)
    · have hsymm : Std.Symm (fun a b : Aluno => a.matricula≠b.matricula) :=
        ⟨fun _ _ hne he => hne he.symm⟩
      by_contra hne
      exact he.distinta.forall ha hb hne hm
  intro a ha b hb hm
  obtain ⟨x,hx,rfl⟩ := List.mem_map.mp ha
  obtain ⟨y,hy,rfl⟩ := List.mem_map.mp hb
  rw [(ImporterController.renomeado_colunas d rs x).2.1,
    (ImporterController.renomeado_colunas d rs y).2.1] at hm
  rw [hall x hx y hy hm]

end Db.MatriculasUnicas

/-- The requests of the queue leave the alunos alone. -/
theorem Core.Passo.alunos {k k' : Core} {r : Requisicao} {ok : Bool} {es : List Evento}
    (h : k.Passo r ok es k') : k'.alunos=k.alunos := by
  have hc : ∀ {f : FilaBase} {n : Int} {mesa : Option Nat} {ok : Bool} {es : List Evento},
      k.Chama f n mesa ok es k' → k'.alunos=k.alunos := by
    intro f n mesa ok es hc
    cases hc <;> rfl
  have he : ∀ {mesa : Option Nat} {es : List Evento},k.Esvazia mesa es k' → k'.alunos=k.alunos := by
    intro mesa es he
    cases he <;> rfl
  cases h with
  | filasFim s f hf hn h => exact he h
  | filasProximo s f hf hn h => exact hc h
  | filasAnterior s f hf h => exact hc h
  | colegiadosFim s c m hm hf h => exact he h
  | colegiadosProximo s c m f hm hf h => exact hc h
  | _ => rfl

/-- Of the routes but the import and the form of the alunos, only their destroy shows in the
alunos. -/
theorem Core.Muda.alunos {k k' : Core} {r : Rota} (h : k.Muda r k') :
    (∃ u i p,r=.alunosUpdate u i p) ∨ ∀ a ∈ k'.alunos.rows,a ∈ k.alunos.rows := by
  cases h with
  | alunosUpdate u p a ha => exact Or.inl ⟨u,a.id,p,rfl⟩
  | alunosDestroy u a ha => exact Or.inr (fun _ hb => List.mem_of_mem_filter hb)
  | requisicao r hp => exact Or.inr (fun _ hb => hp.alunos ▸ hb)
  | filasEsvaziaMesa s i he => cases he <;> exact Or.inr (fun _ hb => hb)
  | colegiadosEsvaziaMesa s i he => cases he <;> exact Or.inr (fun _ hb => hb)
  | _ => exact Or.inr (fun _ hb => hb)

/-- No two alunos ever share a matricula: not by the form of an aluno, which may change it, nor by
an import, whose text may repeat it, in any run of requests however they end. -/
theorem matriculas_unicas {s₀ s : World} (h₀ : s₀.db.MatriculasUnicas)
    (h : Runs Rota.prog (fun _ _ _ => True) s₀ s) : s.db.MatriculasUnicas := by
  refine h.invariant (fun s => s.db.MatriculasUnicas) h₀ ?_
  intro s r hi _
  cases hr : r.importa with
  | true =>
    cases r with
    | importerImport u t g c =>
      have hz : ∀ grupo : Option Grupo,
          (ImporterController.esvaziado grupo s.db).MatriculasUnicas := by
        intro grupo
        cases grupo <;> exact hi
      rcases ImporterController.db_import u t g c s with hd | ⟨grupo,colegiado,hd | hd⟩
      · exact hd ▸ hi
      · exact hd ▸ hz grupo
      · exact hd ▸ (hz grupo).importado grupo colegiado (ImporterController.registros t)
    | _ => cases hr
  | false =>
    rcases (r.muda s hr).alunos with ⟨u,i,p,rfl⟩ | hs
    · have hv : Visto (fun _ _ k => ∀ a ∈ k.alunos.rows,∀ b ∈ k.alunos.rows,
          a.matricula=b.matricula → a=b) (AlunosController.update u i p) s := by
        refine visto_atualiza (Reads.acha _) (fun _ => hi) (fun a ha hv => ?_)
        exact hi.atualizaAluno (Table.mem_of_find ha) hv
      exact hv
    · exact hi.sublist hs

/-- An import that names one matricula twice, and a form that asks for a matricula in use. -/
theorem matriculas_unicas_cenario :
    let s := runAll Rota.prog (Cenario.world Cenario.nova Table.empty)
      [.importerImport (Cenario.mesa 1) "7 Ana\n7 Bia\n" none (some 1),
        .alunosUpdate (Cenario.mesa 1) 1 { matricula := some (some "7") },
        .alunosUpdate (Cenario.mesa 1) 2 { matricula := some (some "8") }]
    s.db.alunos.rows.map (fun a => a.matricula)=
        ((Cenario.world Cenario.nova Table.empty).db.alunos.rows.map
          (fun a => if a.id=2 then some "8" else a.matricula))++[some "7"] ∧
      s.db.MatriculasUnicas := by
  intro s
  refine ⟨by decide +kernel,matriculas_unicas (by decide +kernel) (Runs.start.append _
    (by decide +kernel))⟩

end Sisfila
