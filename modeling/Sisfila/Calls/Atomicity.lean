import Sisfila.Calls.Statistics
import Sisfila.Queue.Run

namespace Sisfila

/-- The state a call of `f` starts from. -/
def World.vista (s : World) (f : Fila) : Vista :=
  ⟨f,s.db.vagasDe (some f.id),s.db.filaValida f.toFilaBase,s.db.vagaValida,s.clock⟩

/-- The same with the pointer moved by `n`. -/
def World.vistaApos (s : World) (f : Fila) (n : Int) : Vista :=
  { s.vista f with fila := f.incrementada n }

/-- The fila whose pointer a request will move, and by how much. -/
def Requisicao.alvo (d : Db) : Requisicao → Option (Fila × Int)
  | .filasProximo u i =>
    if Ability.manageAll u then (d.filas.find i).bind (fun f =>
      if f.posicao=d.contaVagas f.id then none else some (f,1)) else none
  | .filasAnterior u i =>
    if Ability.manageAll u then (d.filas.find i).map (fun f => (f,-1)) else none
  | .colegiadosProximo u c =>
    if Ability.manageAll u && (d.colegiados.find c).isSome && (u.mesa.bind d.mesas.find).isSome
      then ((Colegiado.filasDe c d).find?
        (fun f => decide (f.posicao<(d.contaVagas f.id : Int)))).map (fun f => (f,1))
      else none
  | _ => none

/-- The vaga a call that moves the pointer by `n` finds. -/
def Db.vagaAlvo (d : Db) (f : Fila) (n : Int) : Option Vaga :=
  (d.vagasDe (some f.id)).find? (fun v => v.posicao==some (f.posicao+n))

theorem ok_ocupaMesa (v : Option Vaga) (mesa : Option Nat) (s : World) :
    ((Mesa.ocupaMesa v mesa).exec s).ok=true := by
  unfold Mesa.ocupaMesa
  cases hm : mesa.bind s.db.mesas.find with
  | none => simp [Prog.exec_bind,hm]
  | some m => simp [Prog.exec_bind,hm]

/-- The desks are the only rows it writes. -/
theorem db_ocupaMesa (v : Option Vaga) (mesa : Option Nat) (s : World) :
    ∃ ms,((Mesa.ocupaMesa v mesa).exec s).state.db={ s.db with mesas := ms } := by
  unfold Mesa.ocupaMesa
  cases hm : mesa.bind s.db.mesas.find with
  | none => exact ⟨s.db.mesas,by simp [Prog.exec_bind,hm]⟩
  | some r => exact ⟨_,by simp [Prog.exec_bind,hm,Db.ocupa]; rfl⟩

/-- The desk adds no exception of its own. -/
theorem ok_associaVagaAMesa (v : Option Vaga) (mesa : Option Nat) (s : World) :
    ((Mesa.associaVagaAMesa v mesa).exec s).ok=((Mesa.registra v).exec s).ok := by
  unfold Mesa.associaVagaAMesa
  cases hr : ((Mesa.registra v).exec s).ok with
  | false => exact ok_bind_false hr
  | true =>
    obtain ⟨a,ha⟩ := (Outcome.ok_iff _).mp hr
    have hy : Yields (Mesa.registra v) s a ((Mesa.registra v).exec s).state := ⟨ha,rfl⟩
    rw [hy.ok_bind]
    exact ok_ocupaMesa v mesa _

/-- The pointer is the only thing `increment!` changes for the fila. -/
theorem ve_incrementa {f : Fila} {s : World} (hf : s.db.filas.find f.id=some f) (n : Int) :
    Ve f.id (s.vistaApos f n) { s with db := s.db.incrementa f.id n } := by
  refine ⟨?_,rfl,rfl,?_,rfl⟩
  · have hfind := Table.find_modify s.db.filas f.id f.id
      (fun f => { f with posicao := f.posicao+n }) (fun _ => rfl)
    rw [hf] at hfind
    simpa [Db.filaDe,Db.incrementa,World.vistaApos,Fila.incrementada] using hfind
  · funext w
    cases hw : w.filaId <;>
      simp [Db.vagaValida,Db.filaDe,hw,Db.incrementa,Table.find_modify,World.vistaApos,World.vista]

theorem Db.vagaAlvo_some {d : Db} {f : Fila} {n : Int} {v : Vaga} (hv : d.vagaAlvo f n=some v) :
    v ∈ d.vagasDe (some f.id) ∧ v.posicao=some (f.posicao+n) ∧ v.filaId=some f.id := by
  have hmem := List.mem_of_find?_eq_some hv
  exact ⟨hmem,by simpa using List.find?_some hv,by simpa using (List.mem_filter.mp hmem).2⟩

/-- A numbered list has a vaga at every position up to its length, and at no other. -/
theorem vagaAlvo_iff {d : Db} (hc : d.core.Contigua) (f : Fila) (n : Int) :
    (∃ v,d.vagaAlvo f n=some v) ↔ 1≤f.posicao+n ∧ f.posicao+n≤(d.contaVagas f.id : Int) := by
  have hnum := hc.numerada f.id
  unfold Db.contaVagas
  constructor
  · rintro ⟨v,hv⟩
    obtain ⟨hm,hp,-⟩ := Db.vagaAlvo_some hv
    obtain ⟨k,hk,-,hkp⟩ := hnum.pos_of_mem hm
    have he : f.posicao+n=(k : Int)+1 := Option.some.inj (hp.symm.trans hkp)
    omega
  · rintro ⟨h1,hle⟩
    obtain ⟨k,hk⟩ : ∃ k : Nat,f.posicao+n=(k : Int)+1 := ⟨(f.posicao+n-1).toNat,by omega⟩
    rw [Db.vagaAlvo,hk,hnum.find_eq k,List.getElem?_eq_getElem (by omega)]
    exact ⟨_,rfl⟩

/-- `chama_proximo` moves the pointer, then calls whoever is there. -/
theorem state_chamaProximo (f : Fila) (n : Int) (mesa : Option Nat) (s : World) :
    ((f.chamaProximo mesa n).exec s).state=
      ((Mesa.associaVagaAMesa (s.db.vagaAlvo f n) mesa).exec
        { s with db := s.db.incrementa f.id n }).state := rfl

/-- A call that finds nobody moves the pointer and frees the desk. -/
theorem db_chamaProximo_of_none {f : Fila} {n : Int} {s : World} (h : s.db.vagaAlvo f n=none)
    (mesa : Option Nat) : ∃ ms,((f.chamaProximo mesa n).exec s).state.db=
      { s.db.incrementa f.id n with mesas := ms } := by
  rw [state_chamaProximo,h]
  exact db_ocupaMesa none mesa _

/-- A call raises exactly when it finds a vaga whose statistics do. -/
theorem ok_chamaProximo (f : Fila) (n : Int) (mesa : Option Nat) (s : World)
    (hf : s.db.filas.find f.id=some f) :
    ((f.chamaProximo mesa n).exec s).ok=true ↔
      ∀ v ∈ s.db.vagaAlvo f n,Mesa.Chamavel (s.vista f) v (f.posicao+n) := by
  have hx : ((f.chamaProximo mesa n).exec s).ok=
      ((Mesa.associaVagaAMesa (s.db.vagaAlvo f n) mesa).exec
        { s with db := s.db.incrementa f.id n }).ok := rfl
  rw [hx,ok_associaVagaAMesa]
  cases hv : s.db.vagaAlvo f n with
  | none => simp [Mesa.registra]
  | some v =>
    obtain ⟨hmem,hvp,hvf⟩ := Db.vagaAlvo_some hv
    have hne : (s.vista f).vagas≠[] := List.ne_nil_of_mem hmem
    have hok := Mesa.ok_registraChamada (ve_incrementa hf n) hvf hne hvp
    rw [Mesa.registra,hok]
    simp only [Option.mem_def,Option.some.injEq,forall_eq']
    exact Iff.rfl

/-- A last part that only reads changes neither how the request ends nor what it leaves. -/
theorem exec_bind_reads {α β : Type} {p : Req α} {f : α → Req β} {s : World}
    (hf : ∀ a,∃ b,Reads (f a) (fun _ => .ok b)) :
    ((p >>= f).exec s).ok=(p.exec s).ok ∧ ((p >>= f).exec s).state=(p.exec s).state := by
  rw [Prog.exec_bind,Outcome.andThen]
  cases hr : (p.exec s).result with
  | error e => simp [Outcome.ok,hr]
  | ok a =>
    obtain ⟨b,hb⟩ := hf a
    obtain ⟨log,hx,-⟩ := hb (p.exec s).state
    simp [hx,Outcome.ok,hr]

/-- So does the broadcast at the end, alone or before a redirection. -/
theorem exec_bind_notifica {α : Type} (p : Req α) (s : World) :
    ((p >>= fun _ => notifica).exec s).ok=(p.exec s).ok ∧
      ((p >>= fun _ => notifica).exec s).state=(p.exec s).state :=
  exec_bind_reads (fun _ => ⟨_,reads_notifica⟩)

theorem exec_bind_redireciona {α : Type} (p : Req α) (s : World) :
    ((p >>= fun _ => notifica >>= fun _ => (pure (.redireciona none) : Req Resposta)).exec s).ok=
        (p.exec s).ok ∧
      ((p >>= fun _ => notifica >>= fun _ => (pure (.redireciona none) : Req Resposta)).exec
        s).state=(p.exec s).state :=
  exec_bind_reads (fun _ => ⟨_,reads_notifica_pure _⟩)

/-- What a call answers and leaves is decided by `chama_proximo` once it is reached. -/
def Requisicao.Chega (r : Requisicao) (s : World) (f : Fila) (n : Int) : Prop :=
  ∃ mesa,(r.prog.exec s).ok=((f.chamaProximo mesa n).exec s).ok ∧
    (r.prog.exec s).state=((f.chamaProximo mesa n).exec s).state

namespace Requisicao

theorem alvo_find {r : Requisicao} {d : Db} {f : Fila} {n : Int} (h : r.alvo d=some (f,n)) :
    d.filas.find f.id=some f ∧ n≠0 := by
  cases r with
  | inscrever u m => simp [alvo] at h
  | filasUpdateAtivo u i b => simp [alvo] at h
  | filasProximo u i =>
    simp only [alvo] at h
    split_ifs at h with hu
    obtain ⟨g,hg,he⟩ := Option.bind_eq_some_iff.mp h
    split_ifs at he
    obtain ⟨rfl,rfl⟩ := Prod.mk.inj (Option.some.inj he)
    have hi := Table.key_of_find hg
    rw [Row.key_fila] at hi
    rw [hi]
    exact ⟨hg,by decide⟩
  | filasAnterior u i =>
    simp only [alvo] at h
    split_ifs at h with hu
    obtain ⟨g,hg,he⟩ := Option.map_eq_some_iff.mp h
    obtain ⟨rfl,rfl⟩ := Prod.mk.inj he
    have hi := Table.key_of_find hg
    rw [Row.key_fila] at hi
    rw [hi]
    exact ⟨hg,by decide⟩
  | colegiadosProximo u c =>
    simp only [alvo] at h
    split_ifs at h with hu
    obtain ⟨g,hg,he⟩ := Option.map_eq_some_iff.mp h
    obtain ⟨rfl,rfl⟩ := Prod.mk.inj he
    have hm := (mem_orderBy _ _ _).mp (List.mem_of_find?_eq_some hg)
    exact ⟨(Table.find_eq_some_iff _ _ _).mpr ⟨List.mem_of_mem_filter hm,rfl⟩,by decide⟩

theorem exec_colegiado {u : Sessao} {c : Nat} {s : World} {m : Mesa}
    (hu : Ability.manageAll u=true) (hc : (s.db.colegiados.find c).isSome=true)
    (hm : u.mesa.bind s.db.mesas.find=some m) :
    ((ColegiadosController.proximo u c).exec s).ok=((ColegiadosController.atende
      ((Colegiado.filasDe c s.db).find? (fun f => decide (f.posicao<(s.db.contaVagas f.id : Int))))
        m u).exec s).ok ∧
    ((ColegiadosController.proximo u c).exec s).state=((ColegiadosController.atende
      ((Colegiado.filasDe c s.db).find? (fun f => decide (f.posicao<(s.db.contaVagas f.id : Int))))
        m u).exec s).state := by
  obtain ⟨g,hg⟩ := Option.isSome_iff_exists.mp hc
  have hgc : g.id=c := Table.key_of_find hg
  obtain ⟨log,hx,-⟩ := reads_proximaFilaNaoVazia c s
  have he := exec_bind_reads (s := s) (p := ColegiadosController.atende
    ((Colegiado.filasDe c s.db).find? (fun f => decide (f.posicao<(s.db.contaVagas f.id : Int))))
      m u) (f := fun _ => (pure (.redireciona none) : Req Resposta))
    (fun _ => ⟨_,Reads.ret _⟩)
  rw [← he.1,← he.2]
  simp [ColegiadosController.proximo,ColegiadosController.setColegiado,Prog.exec_bind,hg,hgc,
    authorize,hu,hm,hx,Outcome.ok]

theorem alvo_colegiado {u : Sessao} {c : Nat} {d : Db} {f : Fila} {n : Int}
    (h : (colegiadosProximo u c).alvo d=some (f,n)) :
    n=1 ∧ (Colegiado.filasDe c d).find?
      (fun f => decide (f.posicao<(d.contaVagas f.id : Int)))=some f := by
  simp only [alvo] at h
  split_ifs at h
  obtain ⟨g,hg,he⟩ := Option.map_eq_some_iff.mp h
  obtain ⟨rfl,rfl⟩ := Prod.mk.inj he
  exact ⟨rfl,hg⟩

theorem alvo_some {r : Requisicao} {s : World} {f : Fila} {n : Int}
    (h : r.alvo s.db=some (f,n)) : r.Chega s f n := by
  obtain ⟨hff,-⟩ := alvo_find h
  cases r with
  | inscrever u m => simp [alvo] at h
  | filasUpdateAtivo u i b => simp [alvo] at h
  | filasProximo u i =>
    simp only [alvo] at h
    split_ifs at h with hu
    obtain ⟨g,hg,he⟩ := Option.bind_eq_some_iff.mp h
    split_ifs at he with hn
    obtain ⟨rfl,rfl⟩ := Prod.mk.inj (Option.some.inj he)
    refine ⟨u.mesa,?_⟩
    have hx := exec_bind_redireciona (g.chamaProximo u.mesa 1) s
    rw [← hx.1,← hx.2]
    simp [prog,FilasController.proximo,FilasController.setFila,FilasController.chama,
      Prog.exec_bind,hg,authorize,hu,hn,Outcome.ok]
  | filasAnterior u i =>
    simp only [alvo] at h
    split_ifs at h with hu
    obtain ⟨g,hg,he⟩ := Option.map_eq_some_iff.mp h
    obtain ⟨rfl,rfl⟩ := Prod.mk.inj he
    refine ⟨u.mesa,?_⟩
    have hx := exec_bind_redireciona (g.chamaProximo u.mesa (-1)) s
    rw [← hx.1,← hx.2]
    simp [prog,FilasController.anterior,FilasController.setFila,
      Prog.exec_bind,hg,authorize,hu,Outcome.ok]
  | colegiadosProximo u c =>
    simp only [alvo] at h
    split_ifs at h with hu
    simp only [Bool.and_eq_true] at hu
    obtain ⟨⟨hu,hc⟩,hm⟩ := hu
    obtain ⟨m,hm⟩ := Option.isSome_iff_exists.mp hm
    obtain ⟨g,hg,he⟩ := Option.map_eq_some_iff.mp h
    obtain ⟨rfl,rfl⟩ := Prod.mk.inj he
    have hlt : g.posicao<(s.db.contaVagas g.id : Int) := by simpa using List.find?_some hg
    refine ⟨u.mesa,?_⟩
    have hx := exec_bind_notifica (g.chamaProximo u.mesa 1) s
    have hcol := exec_colegiado hu hc hm
    rw [hg] at hcol
    rw [← hx.1,← hx.2]
    rw [prog,hcol.1,hcol.2]
    simp [ColegiadosController.atende,ColegiadosController.chama,Prog.exec_bind,ne_of_lt hlt,
      Outcome.ok]

theorem ok_esvazia (m : Mesa) (u : Sessao) (s : World) :
    ((ColegiadosController.esvazia m u).exec s).ok=true := by
  have hx := exec_bind_notifica (Mesa.associaVagaAMesa none u.mesa) s
  rw [ok_associaVagaAMesa] at hx
  unfold ColegiadosController.esvazia
  cases hv : m.vagaId.bind s.db.vagas.find with
  | none => simp [Prog.exec_bind,hv]
  | some v =>
    rw [Prog.exec_bind,exec_consulta,hv]
    exact hx.1

/-- Emptying a desk writes that desk at most. -/
theorem db_esvazia (m : Mesa) (u : Sessao) (s : World) :
    ∃ ms,((ColegiadosController.esvazia m u).exec s).state.db={ s.db with mesas := ms } := by
  have hx := exec_bind_notifica (Mesa.associaVagaAMesa none u.mesa) s
  unfold ColegiadosController.esvazia
  cases hv : m.vagaId.bind s.db.vagas.find with
  | none => exact ⟨s.db.mesas,by simp [Prog.exec_bind,hv]⟩
  | some v =>
    rw [Prog.exec_bind,exec_consulta,hv]
    change ∃ ms,((Mesa.associaVagaAMesa none u.mesa >>= fun _ => notifica).exec s).state.db=_
    rw [hx.2]
    exact db_ocupaMesa none u.mesa s

/-- A request of a colegiado that moves no pointer is refused before it writes, or completes and
writes one desk at most. -/
theorem colegiado_of_alvo_none {u : Sessao} {c : Nat} {s : World}
    (h : (colegiadosProximo u c).alvo s.db=none) :
    ((ColegiadosController.proximo u c).exec s).state=s ∨
      ((ColegiadosController.proximo u c).exec s).ok=true ∧
      ∃ ms,((ColegiadosController.proximo u c).exec s).state.db={ s.db with mesas := ms } := by
  cases hc : s.db.colegiados.find c with
  | none =>
    left
    simp [ColegiadosController.proximo,ColegiadosController.setColegiado,Prog.exec_bind,hc]
  | some g =>
    by_cases hu : Ability.manageAll u=true
    · cases hm : u.mesa.bind s.db.mesas.find with
      | none =>
        left
        simp [ColegiadosController.proximo,ColegiadosController.setColegiado,Prog.exec_bind,hc,
          authorize,hu,hm]
      | some m =>
        have hn : (Colegiado.filasDe c s.db).find?
            (fun f => decide (f.posicao<(s.db.contaVagas f.id : Int)))=none := by
          simpa [alvo,hu,hc,hm] using h
        have hcol := exec_colegiado hu (by rw [hc]; rfl) hm
        rw [hn] at hcol
        rw [hcol.1,hcol.2]
        exact Or.inr ⟨ok_esvazia m u s,db_esvazia m u s⟩
    · left
      simp [ColegiadosController.proximo,ColegiadosController.setColegiado,Prog.exec_bind,hc,
        authorize,hu]

theorem db_of_alvo_none {u : Sessao} {c : Nat} {s : World}
    (h : (colegiadosProximo u c).alvo s.db=none) :
    ∃ ms,((ColegiadosController.proximo u c).exec s).state.db={ s.db with mesas := ms } := by
  rcases colegiado_of_alvo_none h with hs | ⟨-,ms,hms⟩
  · exact ⟨s.db.mesas,by rw [hs]⟩
  · exact ⟨ms,hms⟩

/-- The same for a request of a fila. -/
theorem fila_of_alvo_none {u : Sessao} {i : Nat} {s : World}
    (h : (filasProximo u i).alvo s.db=none) :
    ((FilasController.proximo u i).exec s).state=s ∨
      ((FilasController.proximo u i).exec s).ok=true ∧
      ∃ ms,((FilasController.proximo u i).exec s).state.db={ s.db with mesas := ms } := by
  cases hf : s.db.filas.find i with
  | none =>
    left
    simp [FilasController.proximo,FilasController.setFila,Prog.exec_bind,hf]
  | some f =>
    by_cases hu : Ability.manageAll u=true
    · have hn : f.posicao=s.db.contaVagas f.id := by
        by_contra hn
        simp [alvo,hu,hf,hn] at h
      have hx := exec_bind_redireciona (Mesa.associaVagaAMesa none u.mesa) s
      have hok : ((Mesa.associaVagaAMesa none u.mesa).exec s).ok=true := by
        rw [ok_associaVagaAMesa]
        simp [Mesa.registra]
      have hdb := db_ocupaMesa none u.mesa s
      change ∃ ms,((Mesa.associaVagaAMesa none u.mesa).exec s).state.db=_ at hdb
      rw [← hx.1] at hok
      rw [← hx.2] at hdb
      right
      simpa [FilasController.proximo,FilasController.setFila,FilasController.chama,
        Prog.exec_bind,hf,authorize,hu,hn,Outcome.ok] using And.intro hok hdb
    · left
      simp [FilasController.proximo,FilasController.setFila,Prog.exec_bind,hf,authorize,hu]

theorem anterior_of_alvo_none {u : Sessao} {i : Nat} {s : World}
    (h : (filasAnterior u i).alvo s.db=none) :
    ((FilasController.anterior u i).exec s).state=s := by
  cases hf : s.db.filas.find i with
  | none => simp [FilasController.anterior,FilasController.setFila,Prog.exec_bind,hf]
  | some f =>
    have hu : ¬Ability.manageAll u=true := by
      intro hu
      simp [alvo,hu,hf] at h
    simp [FilasController.anterior,FilasController.setFila,Prog.exec_bind,hf,authorize,hu]

/-- Without a target the request raises before it writes, or not at all. -/
theorem alvo_none {r : Requisicao} {s : World}
    (hr : r.acao ∈ [Acao.filasProximo,.filasAnterior,.colegiadosProximo])
    (h : r.alvo s.db=none) (hok : (r.prog.exec s).ok=false) : (r.prog.exec s).state=s := by
  cases r with
  | inscrever u m => simp [acao] at hr
  | filasUpdateAtivo u i b => simp [acao] at hr
  | filasProximo u i =>
    rcases fila_of_alvo_none h with hs | ⟨hyes,-⟩
    · exact hs
    · exact absurd (hyes.symm.trans hok) (by decide)
  | filasAnterior u i => exact anterior_of_alvo_none h
  | colegiadosProximo u c =>
    rcases colegiado_of_alvo_none h with hs | ⟨hyes,-⟩
    · exact hs
    · exact absurd (hyes.symm.trans hok) (by decide)

end Requisicao

/-- Once `chama_proximo` has begun the pointer is not where it was. -/
theorem chamaProximo_moves {f : Fila} {n : Int} (mesa : Option Nat) {s : World}
    (hf : s.db.filas.find f.id=some f) (hn : n≠0) :
    ((f.chamaProximo mesa n).exec s).state.db≠s.db := by
  intro he
  obtain ⟨ms,hk⟩ := Core.Chama.exists_mesas (visto_chamaProximo f n mesa s hf)
  have hc : ((f.chamaProximo mesa n).exec s).core=s.db.core := congrArg Db.core he
  have hfc : s.db.core.filas.find f.id=some f.toFilaBase := by
    rw [Db.findFila_core,hf]
    rfl
  have hfind := Table.find_modify s.db.core.filas f.id f.id
    (fun f => { f with posicao := f.posicao+n }) (fun _ => rfl)
  rw [hc] at hk
  have hk' : s.db.core.filas=(s.db.core.incrementa f.id n).filas := by
    have hfilas := congrArg Core.filas hk
    exact hfilas
  change ((s.db.core.incrementa f.id n).filas).find f.id=_ at hfind
  rw [← hk',hfc] at hfind
  have hp := congrArg (fun o => o.map FilaBase.posicao) hfind
  simp at hp
  exact hn hp

/-- A call that ends in an exception leaves the tables as they were exactly when it could not reach
a vaga whose statistics raise: once the pointer is moved nothing puts it back. -/
theorem chamada_atomica (r : Requisicao) (s : World)
    (hr : r.acao ∈ [Acao.filasProximo,.filasAnterior,.colegiadosProximo]) :
    ((r.prog.exec s).ok=false → (r.prog.exec s).state.db=s.db) ↔
      ∀ f n,r.alvo s.db=some (f,n) → ∀ v ∈ s.db.vagaAlvo f n,
        Mesa.Chamavel (s.vista f) v (f.posicao+n) := by
  cases ha : r.alvo s.db with
  | none =>
    simp only [reduceCtorEq,false_implies,implies_true,iff_true]
    intro hok
    rw [Requisicao.alvo_none hr ha hok]
  | some x =>
    obtain ⟨f,n⟩ := x
    obtain ⟨hf,hn⟩ := Requisicao.alvo_find ha
    obtain ⟨mesa,hok,hst⟩ := Requisicao.alvo_some ha
    have hiff := ok_chamaProximo f n mesa s hf
    have hmove := chamaProximo_moves mesa hf hn
    rw [hok,hst]
    constructor
    · intro h f' n' he
      obtain ⟨rfl,rfl⟩ := Prod.mk.inj (Option.some.inj he)
      rw [← hiff]
      by_contra hno
      exact hmove (h (by simpa using hno))
    · intro h hno
      have hyes := hiff.mpr (h f n rfl)
      rw [hno] at hyes
      simp at hyes

/-- A session without the role is refused before anything is written. -/
theorem chamada_atomica_cenario :
    ((Requisicao.colegiadosProximo ⟨none,some 1⟩ 1).prog.exec
      (Cenario.world Cenario.nova .empty)).ok=false ∧
    (((Requisicao.colegiadosProximo ⟨none,some 1⟩ 1).prog.exec
        (Cenario.world Cenario.nova .empty)).ok=false →
      ((Requisicao.colegiadosProximo ⟨none,some 1⟩ 1).prog.exec
        (Cenario.world Cenario.nova .empty)).state.db=(Cenario.world Cenario.nova .empty).db) := by
  refine ⟨by decide +kernel,(chamada_atomica (.colegiadosProximo ⟨none,some 1⟩ 1) _
    (by decide)).mpr ?_⟩
  intro f n h
  simp [Requisicao.alvo,Ability.manageAll] at h

/-- The only aluno of a new fila is called: the request raises and the pointer stays moved. -/
theorem chamada_parcial :
    let s := (executa (Cenario.world Cenario.nova .empty) [Cenario.inscreve "a"]).2
    let o := (Requisicao.colegiadosProximo (Cenario.mesa 1) 1).prog.exec s
    o.result=.error .typeError ∧ o.state.db≠s.db ∧
      s.db.filas.rows.map (fun f => f.posicao)=[0] ∧
      o.state.db.filas.rows.map (fun f => f.posicao)=[1] ∧
      o.state.db.mesas.rows.map (fun m => m.vagaId)=[none,none] :=
  ⟨by rfl,by decide +kernel,by decide +kernel,by decide +kernel,by decide +kernel⟩

end Sisfila
