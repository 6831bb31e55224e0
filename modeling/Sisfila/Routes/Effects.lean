import Sisfila.Queue.Run
import Sisfila.Routes.Access

namespace Sisfila

/-! The writes of the resource controllers, seen in the core. -/

namespace Core

variable (k : Core)

def apagaVaga (v : VagaBase) : Core := { k with vagas := k.vagas.remove (naFila v.filaId) v }

/-- `VagasController#update` of `v`: both saves. -/
def atualizaVaga (v : VagaBase) (p : VagaParams) : Core :=
  { k with
    vagas := (k.vagas.modify v.id p.atribuiBase (fun _ => rfl)).moveTo (naFila v.filaId)
      (p.atribuiBase v) p.posicao.join }

def atualizaFila (f : FilaBase) (p : FilaParams) : Core :=
  let t := k.filas.modify f.id p.atribuiBase (fun _ => rfl)
  { k with
    filas := match p.prioridade with
      | none => t
      | some q => t.moveTo Db.todas (p.atribuiBase f) q }

def apagaFila (f : FilaBase) : Core := { k with filas := k.filas.remove Db.todas f }

def atualizaAluno (i : Nat) (p : AlunoParams) : Core :=
  { k with alunos := k.alunos.modify i p.atribui p.key_atribui }

def apagaAluno (i : Nat) : Core :=
  { k with
    alunos := k.alunos.delete i
    alunosGrupos := k.alunosGrupos.filter (fun x => x.1 != i) }

def insereColegiado (p : ColegiadoParams) : Core :=
  { k with colegiados := k.colegiados.insert (fun n => p.atribui { id := n }) p.key_novo }

def atualizaColegiado (i : Nat) (p : ColegiadoParams) : Core :=
  { k with colegiados := k.colegiados.modify i p.atribui p.key_atribui }

def apagaColegiado (i : Nat) : Core := { k with colegiados := k.colegiados.delete i }

def insereMesa (p : MesaParams) (agora : ℚ) : Core :=
  { k with
    mesas := k.mesas.insert (fun n => p.atribui { id := n, updatedAt := agora }) (p.key_nova agora) }

def atualizaMesa (i : Nat) (p : MesaParams) (agora : ℚ) : Core :=
  { k with mesas := k.mesas.modify i (p.atualiza agora) (p.key_atualiza agora) }

def apagaMesa (i : Nat) : Core := { k with mesas := k.mesas.delete i }

/-- Everything a route can do to the core, the import apart. -/
inductive Muda (k : Core) : Rota → Core → Prop
  | nada (r : Rota) : Muda k r k
  | requisicao (r : Requisicao) {ok : Bool} {es : List Evento} {k' : Core}
      (h : k.Passo r ok es k') : Muda k (.requisicao r) k'
  | filasEsvaziaMesa (s : Sessao) (i : Nat) {es : List Evento} {k' : Core}
      (h : k.Esvazia s.mesa es k') : Muda k (.filasEsvaziaMesa s i) k'
  | colegiadosEsvaziaMesa (s : Sessao) (i : Nat) {es : List Evento} {k' : Core}
      (h : k.Esvazia s.mesa es k') : Muda k (.colegiadosEsvaziaMesa s i) k'
  | alunosUpdate (s : Sessao) (p : AlunoParams) (a : Aluno) (ha : k.alunos.find a.id=some a) :
      Muda k (.alunosUpdate s a.id p) (k.atualizaAluno a.id p)
  | alunosDestroy (s : Sessao) (a : Aluno) (ha : k.alunos.find a.id=some a) :
      Muda k (.alunosDestroy s a.id) (k.apagaAluno a.id)
  | colegiadosCreate (s : Sessao) (p : ColegiadoParams) :
      Muda k (.colegiadosCreate s p) (k.insereColegiado p)
  | colegiadosUpdate (s : Sessao) (p : ColegiadoParams) (c : Colegiado)
      (hc : k.colegiados.find c.id=some c) :
      Muda k (.colegiadosUpdate s c.id p) (k.atualizaColegiado c.id p)
  | colegiadosDestroy (s : Sessao) (c : Colegiado) (hc : k.colegiados.find c.id=some c) :
      Muda k (.colegiadosDestroy s c.id) (k.apagaColegiado c.id)
  | filasUpdate (s : Sessao) (p : FilaParams) (f : FilaBase) (hf : k.filas.find f.id=some f) :
      Muda k (.filasUpdate s f.id p) (k.atualizaFila f p)
  | filasDestroy (s : Sessao) (f : FilaBase) (hf : k.filas.find f.id=some f) :
      Muda k (.filasDestroy s f.id) (k.apagaFila f)
  | mesasCreate (s : Sessao) (p : MesaParams) (t : ℚ) :
      Muda k (.mesasCreate s p) (k.insereMesa p t)
  | mesasUpdate (s : Sessao) (p : MesaParams) (m : Mesa) (t : ℚ) (hm : k.mesas.find m.id=some m) :
      Muda k (.mesasUpdate s m.id p) (k.atualizaMesa m.id p t)
  | mesasDestroy (s : Sessao) (m : Mesa) (hm : k.mesas.find m.id=some m) :
      Muda k (.mesasDestroy s m.id) (k.apagaMesa m.id)
  | rodadas (r : Rota) (rs : Table Rodada) : Muda k r { k with rodadas := rs }
  | vagasUpdate (s : Sessao) (p : VagaParams) (v : VagaBase) (hv : k.vagas.find v.id=some v)
      (hp : k.vagaValida (p.atribuiBase v)=true) :
      Muda k (.vagasUpdate s v.id p) (k.atualizaVaga v p)
  | vagasDestroy (s : Sessao) (v : VagaBase) (hv : k.vagas.find v.id=some v)
      (ha : (v.alunoId.bind k.alunos.find).isSome=true) :
      Muda k (.vagasDestroy s v.id) (k.apagaVaga v)

end Core

namespace Db

variable (d : Db)

theorem core_apagaVaga (v : Vaga) : (d.apagaVaga v).core=d.core.apagaVaga v.toVagaBase := by
  have h : (d.vagas.remove (naFila v.filaId) v).map Vaga.toVagaBase (fun _ => rfl)=
      d.core.vagas.remove (Core.naFila v.filaId) v.toVagaBase :=
    Table.remove_map Vaga.toVagaBase (fun _ => rfl) (fun _ => rfl) (fun _ _ => rfl)
      (by intro _; rfl) v d.vagas
  exact Core.ext rfl rfl rfl rfl rfl rfl rfl h

theorem core_apagaFila (f : Fila) : (d.apagaFila f).core=d.core.apagaFila f.toFilaBase := by
  have h : (d.filas.remove todas f).map Fila.toFilaBase (fun _ => rfl)=
      d.core.filas.remove todas f.toFilaBase :=
    Table.remove_map Fila.toFilaBase (fun _ => rfl) (fun _ => rfl) (fun _ _ => rfl)
      (by intro _; rfl) f d.filas
  exact Core.ext rfl rfl rfl h rfl rfl rfl rfl

theorem core_atualizaVaga (v : Vaga) (p : VagaParams) :
    ((d.atualizaVaga v.id p).setListPosition (p.atribui v) p.posicao.join).core=
      d.core.atualizaVaga v.toVagaBase p := by
  have hm : (d.atualizaVaga v.id p).core.vagas=
      d.core.vagas.modify v.id p.atribuiBase (fun _ => rfl) :=
    d.vagas.map_modify Vaga.toVagaBase (fun _ => rfl) v.id p.atribui (fun _ => rfl) p.atribuiBase
      (fun _ => rfl) (fun _ => rfl)
  have h : ((d.atualizaVaga v.id p).vagas.moveTo (naFila v.filaId) (p.atribui v)
        p.posicao.join).map Vaga.toVagaBase (fun _ => rfl)=
      (d.atualizaVaga v.id p).core.vagas.moveTo (Core.naFila v.filaId)
        (p.atribuiBase v.toVagaBase) p.posicao.join :=
    Table.moveTo_map Vaga.toVagaBase (fun _ => rfl) (fun _ => rfl) (fun _ _ => rfl)
      (by intro _; rfl) _ _ _
  rw [hm] at h
  exact Core.ext rfl rfl rfl rfl rfl rfl rfl h

theorem core_atualizaFila (f : Fila) (p : FilaParams) :
    (d.atualizaFila f p).core=d.core.atualizaFila f.toFilaBase p := by
  have hm := d.filas.map_modify Fila.toFilaBase (fun _ => rfl) f.id p.atribui (fun _ => rfl)
    p.atribuiBase (fun _ => rfl) (fun _ => rfl)
  refine Core.ext rfl rfl rfl ?_ rfl rfl rfl rfl
  unfold atualizaFila Core.atualizaFila
  cases p.prioridade with
  | none => exact hm
  | some q =>
    have h : ((d.filas.modify f.id p.atribui (fun _ => rfl)).moveTo todas (p.atribui f) q).map
          Fila.toFilaBase (fun _ => rfl)=
        ((d.filas.modify f.id p.atribui (fun _ => rfl)).map Fila.toFilaBase (fun _ => rfl)).moveTo
          todas (p.atribuiBase f.toFilaBase) q :=
      Table.moveTo_map Fila.toFilaBase (fun _ => rfl) (fun _ => rfl) (fun _ _ => rfl)
        (by intro _; rfl) _ q _
    rw [hm] at h
    exact h

end Db

/-! Running the actions. -/

section filters

variable {ρ : Type}

theorem Reads.acha (q : Db → Option ρ) :
    Reads (acha q) (fun d => (q d).elim (.error .recordNotFound) .ok) := by
  refine ((Reads.consulta q).bind (fun r => Reads.orRaise _ r)).congr ?_
  intro d
  cases q d <;> simp [Except.bind]

theorem Reads.setFila (i : Nat) : Reads (FilasController.setFila i)
    (fun d => (d.filas.find i).elim (.error .recordNotFound) .ok) := by
  refine ((Reads.le (fun _ => rfl) (fun d => d.filas.find i)).bind
    (fun r => Reads.orRaise _ r)).congr ?_
  intro d
  cases d.filas.find i <;> simp [Except.bind]

variable {s : World} {P : Bool → List Evento → Core → Prop} {u : Sessao} {achar : Req ρ}
  {q : Db → Option ρ}

/-- A filtered action does nothing, or runs its body on the row the filter found. -/
theorem visto_comFiltros {acao : ρ → Req Resposta} {entrada : Bool}
    (ha : Reads achar (fun d => (q d).elim (.error .recordNotFound) .ok))
    (hn : ∀ ok,P ok [] s.db.core) (hf : ∀ x,q s.db=some x → Visto P (acao x) s) :
    Visto P (comFiltros achar entrada u acao) s := by
  refine Visto.reads_bind ha (hn false) ?_
  intro x hx
  have hq : q s.db=some x := by
    cases h : q s.db with
    | none => simp [h] at hx
    | some y => simpa [h] using hx
  split
  · exact hn true
  · exact Visto.authorize_bind (hn false) (hf x hq)

theorem visto_atualiza {valida : ρ → Db → Bool} {escrita : ρ → Db → Db} {entrada : Bool}
    {aviso : String} (ha : Reads achar (fun d => (q d).elim (.error .recordNotFound) .ok))
    (hn : ∀ ok,P ok [] s.db.core)
    (hw : ∀ x,q s.db=some x → valida x s.db=true → P true [] (escrita x s.db).core) :
    Visto P (atualiza achar entrada u valida escrita aviso) s := by
  refine visto_comFiltros ha hn (fun x hx => Visto.consulta_bind ?_)
  split_ifs with hv
  · exact hw x hx hv
  · exact hn true

theorem visto_apaga {escrita : ρ → Db → Db} {entrada : Bool} {aviso : String}
    (ha : Reads achar (fun d => (q d).elim (.error .recordNotFound) .ok))
    (hn : ∀ ok,P ok [] s.db.core)
    (hw : ∀ x,q s.db=some x → P true [] (escrita x s.db).core) :
    Visto P (apaga achar entrada u escrita aviso) s :=
  visto_comFiltros ha hn (fun x hx => hw x hx)

theorem visto_cria {valida : Db → Bool} {insere : Db → Db} {entrada : Bool} {aviso : String}
    (hn : ∀ ok,P ok [] s.db.core) (hw : valida s.db=true → P true [] (insere s.db).core) :
    Visto P (cria entrada u valida insere aviso) s := by
  refine visto_comFiltros (q := fun _ => some ()) (Reads.ret ()) hn
    (fun _ _ => Visto.consulta_bind ?_)
  split_ifs with hv
  · exact hw hv
  · exact hn true

end filters

section routes

variable (s : World) (u : Sessao)

/-- What a route leaves in the core, whatever it shows on the way. -/
abbrev Deixa {α : Type} (r : Rota) (p : Req α) (s : World) : Prop :=
  Visto (fun _ _ k => s.db.core.Muda r k) p s

private theorem id_of_find {ρ : Type} [Row ρ] {t : Table ρ} {i : Nat} {x : ρ}
    (h : t.find i=some x) : i=Row.key x ∧ t.find (Row.key x)=some x := by
  have hi := Table.key_of_find h
  exact ⟨hi.symm,hi ▸ h⟩

private theorem find_core_fila {s : World} {f : Fila} (h : s.db.filas.find f.id=some f) :
    s.db.core.filas.find f.id=some f.toFilaBase := by
  rw [Db.findFila_core,h]
  rfl

private theorem find_core_vaga {s : World} {v : Vaga} (h : s.db.vagas.find v.id=some v) :
    s.db.core.vagas.find v.id=some v.toVagaBase := by
  rw [Db.core_vagas,Table.find_map,h]
  rfl

theorem deixa_alunosCreate (p : AlunoParams) :
    Deixa (.alunosCreate u p) (AlunosController.create u p) s := by
  refine visto_cria (fun _ => .nada _) (fun h => ?_)
  -- no parameter gives the colegiado that `belongs_to` asks for
  simp [Db.alunoValido,AlunoParams.novo,AlunoParams.atribui,Db.colegiadoDe] at h

theorem deixa_alunosUpdate (i : Nat) (p : AlunoParams) :
    Deixa (.alunosUpdate u i p) (AlunosController.update u i p) s := by
  refine visto_atualiza (Reads.acha _) (fun _ => .nada _) (fun a ha _ => ?_)
  obtain ⟨rfl,ha⟩ := id_of_find ha
  exact .alunosUpdate u p a ha

theorem deixa_alunosDestroy (i : Nat) :
    Deixa (.alunosDestroy u i) (AlunosController.destroy u i) s := by
  refine visto_apaga (Reads.acha _) (fun _ => .nada _) (fun a ha => ?_)
  obtain ⟨rfl,ha⟩ := id_of_find ha
  exact .alunosDestroy u a ha

theorem deixa_colegiadosCreate (p : ColegiadoParams) :
    Deixa (.colegiadosCreate u p) (ColegiadosController.create u p) s :=
  visto_cria (fun _ => .nada _) (fun _ => .colegiadosCreate u p)

theorem deixa_colegiadosUpdate (i : Nat) (p : ColegiadoParams) :
    Deixa (.colegiadosUpdate u i p) (ColegiadosController.update u i p) s := by
  refine visto_atualiza (Reads.acha _) (fun _ => .nada _) (fun c hc _ => ?_)
  obtain ⟨rfl,hc⟩ := id_of_find hc
  exact .colegiadosUpdate u p c hc

theorem deixa_colegiadosDestroy (i : Nat) :
    Deixa (.colegiadosDestroy u i) (ColegiadosController.destroy u i) s := by
  refine visto_apaga (Reads.acha _) (fun _ => .nada _) (fun c hc => ?_)
  obtain ⟨rfl,hc⟩ := id_of_find hc
  exact .colegiadosDestroy u c hc

theorem visto_esvaziaMesa {P : Bool → List Evento → Core → Prop}
    (h : ∀ es k,s.db.core.Esvazia u.mesa es k → P true es k) : Visto P (esvaziaMesa u) s := by
  refine Visto.bind_reads ?_ (fun _ => ⟨_,reads_notifica_pure _⟩)
  refine (visto_esvazia u.mesa s).mono ?_
  rintro _ es k ⟨rfl,he⟩
  exact h es k he

theorem deixa_colegiadosEsvaziaMesa (i : Nat) :
    Deixa (.colegiadosEsvaziaMesa u i) (ColegiadosController.esvaziaMesa u i) s :=
  visto_comFiltros (Reads.acha _) (fun _ => .nada _)
    (fun _ _ => visto_esvaziaMesa s u (fun _ _ he => .colegiadosEsvaziaMesa u i he))

theorem deixa_filasEsvaziaMesa (i : Nat) :
    Deixa (.filasEsvaziaMesa u i) (FilasController.esvaziaMesa u i) s :=
  visto_comFiltros (Reads.acha _) (fun _ => .nada _)
    (fun _ _ => visto_esvaziaMesa s u (fun _ _ he => .filasEsvaziaMesa u i he))

/-- A fila without a colegiado is never saved. -/
theorem visto_filasCreate [ActsAsList Fila] {P : Bool → List Evento → Core → Prop}
    (hn : ∀ ok,P ok [] s.db.core) (p : FilaParams) : Visto P (FilasController.create u p) s := by
  refine visto_comFiltros (q := fun _ => some ()) (Reads.ret ()) hn
    (fun _ _ => Visto.consulta_bind ?_)
  have hv : s.db.filaValida (p.nova s.db.filas.next).toFilaBase=false := rfl
  rw [hv]
  exact hn true

theorem deixa_filasCreate (p : FilaParams) :
    Deixa (.filasCreate u p) (FilasController.create u p) s :=
  visto_filasCreate s u (fun _ => .nada _) p

theorem deixa_filasUpdate (i : Nat) (p : FilaParams) :
    Deixa (.filasUpdate u i p) (FilasController.update u i p) s := by
  refine visto_comFiltros (Reads.setFila i) (fun _ => .nada _)
    (fun f hf => Visto.consulta_bind ?_)
  obtain ⟨rfl,hf⟩ := id_of_find hf
  split
  · unfold FilasController.gravaFila
    split
    · exact .nada _
    · have h := Core.Muda.filasUpdate u p f.toFilaBase (find_core_fila hf)
      rw [← Db.core_atualizaFila] at h
      exact h
  · exact .nada _

theorem deixa_filasDestroy (i : Nat) :
    Deixa (.filasDestroy u i) (FilasController.destroy u i) s := by
  refine visto_comFiltros (Reads.setFila i) (fun _ => .nada _) (fun f hf => ?_)
  obtain ⟨rfl,hf⟩ := id_of_find hf
  refine Visto.reads_bind (Reads.acha _) (.nada _) (fun g hg => ?_)
  change s.db.filas.find f.id=some f at hf
  obtain rfl : f=g := by simpa [hf] using hg
  have h := Core.Muda.filasDestroy u f.toFilaBase (find_core_fila hf)
  rw [← Db.core_apagaFila] at h
  exact h

theorem deixa_mesasCreate (p : MesaParams) :
    Deixa (.mesasCreate u p) (MesasController.create u p) s := by
  unfold MesasController.create MesasController.aceitaVaga
  split
  · exact .nada _
  · split
    · exact Visto.authorize_bind (.nada _) (.mesasCreate u p _)
    · exact .nada _

theorem deixa_mesasUpdate (i : Nat) (p : MesaParams) :
    Deixa (.mesasUpdate u i p) (MesasController.update u i p) s := by
  refine visto_comFiltros (Reads.acha _) (fun _ => .nada _) (fun m hm => ?_)
  obtain ⟨rfl,hm⟩ := id_of_find hm
  unfold MesasController.aceitaVaga
  split
  · exact .mesasUpdate u p m _ hm
  · exact .nada _

theorem deixa_mesasDestroy (i : Nat) :
    Deixa (.mesasDestroy u i) (MesasController.destroy u i) s := by
  refine visto_apaga (Reads.acha _) (fun _ => .nada _) (fun m hm => ?_)
  obtain ⟨rfl,hm⟩ := id_of_find hm
  exact .mesasDestroy u m hm

theorem deixa_rodadasCreate (p : RodadaParams) :
    Deixa (.rodadasCreate u p) (RodadasController.create u p) s :=
  visto_cria (fun _ => .nada _) (fun _ => .rodadas _ _)

theorem deixa_rodadasUpdate (i : Nat) (p : RodadaParams) :
    Deixa (.rodadasUpdate u i p) (RodadasController.update u i p) s :=
  visto_atualiza (Reads.acha _) (fun _ => .nada _) (fun _ _ _ => .rodadas _ _)

theorem deixa_rodadasDestroy (i : Nat) :
    Deixa (.rodadasDestroy u i) (RodadasController.destroy u i) s :=
  visto_apaga (Reads.acha _) (fun _ => .nada _) (fun _ _ => .rodadas _ _)

/-- Nor a vaga without a fila. -/
theorem visto_vagasCreate [ActsAsList Vaga] {P : Bool → List Evento → Core → Prop}
    (hn : ∀ ok,P ok [] s.db.core) (p : VagaParams) : Visto P (VagasController.create u p) s := by
  refine visto_comFiltros (q := fun _ => some ()) (Reads.ret ()) hn
    (fun _ _ => Visto.consulta_bind ?_)
  have hv : s.db.vagaValida (p.nova 0 s.db.vagas.next).toVagaBase=false := Bool.and_false _
  rw [hv]
  exact hn true

theorem deixa_vagasCreate (p : VagaParams) :
    Deixa (.vagasCreate u p) (VagasController.create u p) s :=
  visto_vagasCreate s u (fun _ => .nada _) p

theorem deixa_vagasUpdate (i : Nat) (p : VagaParams) :
    Deixa (.vagasUpdate u i p) (VagasController.update u i p) s := by
  refine visto_comFiltros (Reads.acha _) (fun _ => .nada _) (fun v hv => Visto.consulta_bind ?_)
  obtain ⟨rfl,hv⟩ := id_of_find hv
  split_ifs with hp
  · rw [← Db.vagaValida_core] at hp
    have h := Core.Muda.vagasUpdate u p v.toVagaBase (find_core_vaga hv) hp
    rw [← Db.core_atualizaVaga] at h
    exact h
  · exact .nada _

theorem deixa_vagasDestroy (i : Nat) :
    Deixa (.vagasDestroy u i) (VagasController.destroy u i) s := by
  refine visto_comFiltros (Reads.acha _) (fun _ => .nada _) (fun v hv => Visto.consulta_bind ?_)
  obtain ⟨rfl,hv⟩ := id_of_find hv
  refine Visto.orRaise_bind (.nada _) (fun a ha => ?_)
  refine Visto.reads_bind (Reads.acha _) (.nada _) (fun w hw => ?_)
  change s.db.vagas.find v.id=some v at hv
  obtain rfl : v=w := by simpa [hv] using hw
  have h := Core.Muda.vagasDestroy u v.toVagaBase (find_core_vaga hv)
    (Option.isSome_iff_exists.mpr ⟨a,ha⟩)
  rw [← Db.core_apagaVaga] at h
  exact h

theorem Rota.muda_of_readOnly {r : Rota} (h : r.prog.ReadOnly) :
    s.db.core.Muda r (r.prog.exec s).core := by
  unfold Outcome.core
  rw [h.exec_state]
  exact .nada _

/-- Whatever a route does shows in the core as one of the listed changes. -/
theorem Rota.muda (r : Rota) (hr : r.importa=false) :
    s.db.core.Muda r (r.prog.exec s).core := by
  cases r with
  | requisicao r => exact .requisicao r (r.passo s)
  | alunosCreate u p => exact deixa_alunosCreate s u p
  | alunosUpdate u i p => exact deixa_alunosUpdate s u i p
  | alunosDestroy u i => exact deixa_alunosDestroy s u i
  | colegiadosCreate u p => exact deixa_colegiadosCreate s u p
  | colegiadosUpdate u i p => exact deixa_colegiadosUpdate s u i p
  | colegiadosDestroy u i => exact deixa_colegiadosDestroy s u i
  | colegiadosEsvaziaMesa u i => exact deixa_colegiadosEsvaziaMesa s u i
  | filasCreate u p => exact deixa_filasCreate s u p
  | filasUpdate u i p => exact deixa_filasUpdate s u i p
  | filasDestroy u i => exact deixa_filasDestroy s u i
  | filasEsvaziaMesa u i => exact deixa_filasEsvaziaMesa s u i
  | mesasCreate u p => exact deixa_mesasCreate s u p
  | mesasUpdate u i p => exact deixa_mesasUpdate s u i p
  | mesasDestroy u i => exact deixa_mesasDestroy s u i
  | rodadasCreate u p => exact deixa_rodadasCreate s u p
  | rodadasUpdate u i p => exact deixa_rodadasUpdate s u i p
  | rodadasDestroy u i => exact deixa_rodadasDestroy s u i
  | vagasCreate u p => exact deixa_vagasCreate s u p
  | vagasUpdate u i p => exact deixa_vagasUpdate s u i p
  | vagasDestroy u i => exact deixa_vagasDestroy s u i
  | importerImport u t g c => cases hr
  | _ => exact Rota.muda_of_readOnly s (Rota.readOnly_of_leitura rfl)

/-- A request that is not authorized to manage changes the core only as an enrolment. -/
theorem Rota.core_eq_or (r : Rota) : (r.prog.exec s).core=s.db.core ∨
    Ability.manageAll r.sessao=true ∨ ∃ u m,r=.requisicao (.inscrever u m) := by
  by_cases hs : Ability.manageAll r.sessao=true
  · exact Or.inr (Or.inl hs)
  · by_cases hr : ∃ u m,r=.requisicao (.inscrever u m)
    · exact Or.inr (Or.inr hr)
    · have he := (Rota.readOnly (Bool.not_eq_true _ ▸ hs) (fun u m h => hr ⟨u,m,h⟩)).exec_state s
      exact Or.inl (congrArg (fun s : World => s.db.core) he)

/-- An invariant of the core is kept by a route if enrolments keep it, and the changes a superadmin
makes through that route. -/
theorem Rota.mantem (r : Rota) {I : Core → Prop} (hI : I s.db.core) (hr : r.importa=false)
    (hins : ∀ u m ok es k',s.db.core.Passo (.inscrever u m) ok es k' → I k')
    (hmuda : ∀ k',Ability.manageAll r.sessao=true → s.db.core.Muda r k' → I k') :
    I (r.prog.exec s).core := by
  rcases r.core_eq_or s with he | hs | ⟨u,m,rfl⟩
  · rw [he]
    exact hI
  · exact hmuda _ hs (r.muda s hr)
  · exact hins u m _ _ _ ((Requisicao.inscrever u m).passo s)

end routes

/-- A kind of route that leaves the import out. -/
theorem Rota.importa_of {p : Rota → Bool} (hp : ∀ s t g c,p (.importerImport s t g c)=false)
    {r : Rota} (h : p r=true) : r.importa=false := by
  cases r with
  | importerImport s t g c =>
    rw [hp] at h
    cases h
  | _ => rfl

end Sisfila
