import Sisfila.Queue.Enrolment

namespace Sisfila

/-- `n` is the greatest `posicao` of the fila, 0 when it has none. -/
def Db.Maior (d : Db) (f : Option Nat) (n : Nat) : Prop :=
  (∀ w ∈ d.vagasDe f,∀ p ∈ w.posicao,p≤(n : Int)) ∧
    (n=0 ∨ ∃ w ∈ d.vagasDe f,w.posicao=some (n : Int))

theorem Db.maior_maiorPosicao (d : Db) (f : Option Nat) : d.Maior f (d.maiorPosicao f) :=
  ⟨fun _ hw _ hp => Table.le_bottom hw hp,d.vagas.bottom_attained⟩

namespace TelaController

/-- Every way a request to enrol can end, with the tables it leaves. -/
inductive Desfecho (s : World) (u : Sessao) (m : Option String) :
    Except Erro Resposta → Db → Prop
  | semRodada (h : s.db.rodadas.rows=[]) : Desfecho s u m (.error .noMethodError) s.db
  | recusa (r : Resposta) (h : Recusa r) (hn : Aberta s.db u → ∀ a g,¬Escolhe s.db m a g) :
      Desfecho s u m (.ok r) s.db
  | naVez (a : Aluno) (g : Grupo) (v : Vaga) (f : Fila) (hu : Aberta s.db u)
      (hag : Escolhe s.db m a g) (hv : s.db.proximaVaga a=some (v,f))
      (hp : v.posicao=some f.posicao) :
      Desfecho s u m (.ok (.json 405 "Já está na sua vez!")) s.db
  | naFila (a : Aluno) (g : Grupo) (v : Vaga) (f : Fila) (p : Int) (q : ℚ) (hu : Aberta s.db u)
      (hag : Escolhe s.db m a g) (hv : s.db.proximaVaga a=some (v,f)) (hp : v.posicao=some p)
      (hne : p≠f.posicao) (hq : f.tempoatendimento=some (.num q)) :
      Desfecho s u m (.ok (.json 405
        (mensagemNaFila (Vaga.codigo (some f) (some p)) (((p-f.posicao : Int) : ℚ)*q)))) s.db
  | semTempo (a : Aluno) (g : Grupo) (v : Vaga) (f : Fila) (e : Erro) (hu : Aberta s.db u)
      (hag : Escolhe s.db m a g) (hv : s.db.proximaVaga a=some (v,f))
      (hne : v.posicao≠some f.posicao) (ht : ¬f.comTempo) : Desfecho s u m (.error e) s.db
  | semFila (a : Aluno) (g : Grupo) (hu : Aberta s.db u) (hag : Escolhe s.db m a g)
      (hv : s.db.proximaVaga a=none) (hf : s.db.filaDe g.filaId=none) :
      Desfecho s u m (.ok (.inscrito a (Vaga.codigo none none))) s.db
  | inscrito (a : Aluno) (g : Grupo) (f : Fila) (t : ℚ) (hu : Aberta s.db u)
      (hag : Escolhe s.db m a g) (hv : s.db.proximaVaga a=none)
      (hf : s.db.filaDe g.filaId=some f) :
      Desfecho s u m (.ok (.inscrito a
          (Vaga.codigo (some f) (some (s.db.maiorPosicao (some f.id)+1 : Nat)))))
        (s.db.insereVaga a.id (some f.id) (s.db.maiorPosicao (some f.id)) t)

variable {s : World} {u : Sessao} {m : Option String}

private theorem desfecho_inscreve {a : Aluno} {g : Grupo} (hu : Aberta s.db u)
    (hag : Escolhe s.db m a g) :
    Desfecho s u m ((inscreve a g).exec s).result ((inscreve a g).exec s).state.db := by
  obtain ⟨log,hx,-⟩ := reads_proximaVaga a s
  change a.proximaVaga.exec s=⟨log,.ok (s.db.proximaVaga a),s⟩ at hx
  cases hv : s.db.proximaVaga a with
  | some x =>
    obtain ⟨v,f⟩ := x
    obtain ⟨p,hp⟩ := Db.posicao_of_proximaVaga hv
    obtain ⟨hst,hcase⟩ := exec_jaNaFila f hp s
    have hr : ((inscreve a g).exec s).result=((jaNaFila v f).exec s).result := by
      simp [inscreve,Prog.exec_bind,hx,hv]
    have hd : ((inscreve a g).exec s).state.db=s.db := by
      simp [inscreve,Prog.exec_bind,hx,hv,hst]
    rw [hr,hd]
    rcases hcase with ⟨rfl,hres⟩ | ⟨hne,q,hq,hres⟩ | ⟨hne,ht,e,hres⟩
    · rw [hres]
      exact .naVez a g v f hu hag hv hp
    · rw [hres]
      exact .naFila a g v f p q hu hag hv hp hne hq
    · rw [hres]
      exact .semTempo a g v f e hu hag hv (by simpa [hp] using hne) ht
  | none =>
    cases hf : s.db.filaDe g.filaId with
    | none =>
      have h : Desfecho s u m (.ok (.inscrito a (Vaga.codigo none none))) s.db :=
        .semFila a g hu hag hv hf
      simpa [inscreve,Vaga.create,Prog.exec_bind,hx,hv,hf] using h
    | some f =>
      have h := Desfecho.inscrito (t := s.clock 0) a g f hu hag hv hf
      simpa [inscreve,Vaga.create,Prog.exec_bind,hx,hv,hf] using h

/-- The exits of `TelaController#inscrever`. -/
theorem desfecho (u : Sessao) (m : Option String) (s : World) :
    Desfecho s u m ((inscrever u m).exec s).result ((inscrever u m).exec s).state.db := by
  by_cases h : Aberta s.db u ∧ ∃ a g,Escolhe s.db m a g
  · obtain ⟨hu,a,g,hag⟩ := h
    obtain ⟨log,he⟩ := exec_inscrever hu hag
    rw [he]
    exact desfecho_inscreve hu hag
  · have hn : Aberta s.db u → ∀ a g,¬Escolhe s.db m a g := fun hu a g hag => h ⟨hu,a,g,hag⟩
    cases hr : s.db.rodadas.rows.head? with
    | none =>
      have hv : s.db.rodadas.rows=[] := List.head?_eq_none_iff.mp hr
      have hd := Desfecho.semRodada (u := u) (m := m) hv
      simpa [inscrever,Prog.exec_bind,hr] using hd
    | some r =>
      obtain ⟨log,x,hx,hR⟩ := recusa_inscrever hr hn
      rw [hx]
      exact .recusa x hR hn

/-! What a 200 says. -/

/-- One vaga more: for the aluno of the matricula, in the fila of the grupo chosen for them, one
position below the bottom. -/
structure Acrescenta (d d' : Db) (m : Option String) (a : Aluno) (f : Fila) (n : Nat) : Prop where
  aluno : d.alunos.rows.find? (fun a => a.matricula==m)=some a
  fila : ∃ g,a.primeiroGrupo d.grupos d.alunosGrupos=some g ∧ d.filaDe g.filaId=some f
  fundo : d.Maior (some f.id) n
  vaga : ∃ v,d'.vagas.rows=d.vagas.rows++[v] ∧ v.alunoId=some a.id ∧ v.filaId=some f.id ∧
    v.posicao=some ((n : Int)+1)

/-- The answer tells what happened to the vagas. -/
structure Coerente (d : Db) (m : Option String) (r : Except Erro Resposta) (d' : Db) : Prop where
  inscrito : (∃ a c,r=.ok (.inscrito a c)) ↔ ∃ a f n,Acrescenta d d' m a f n
  codigo : ∀ a c,r=.ok (.inscrito a c) → ∃ f n,Acrescenta d d' m a f n ∧
    c=f.codigo.getD ""++"_"++toString (n+1)
  outra : (∀ a c,r≠.ok (.inscrito a c)) → d'.vagas=d.vagas

/-- The grupo a new vaga would go by has a fila that exists. -/
def ComFila (d : Db) (u : Sessao) (m : Option String) : Prop :=
  Aberta d u → ∀ a g,Escolhe d m a g → d.proximaVaga a=none → (d.filaDe g.filaId).isSome=true

theorem Escolhe.aluno_unique {d : Db} {a b : Aluno} {g h : Grupo} (ha : Escolhe d m a g)
    (hb : Escolhe d m b h) : a=b ∧ g=h := by
  obtain rfl : a=b := Option.some.inj (ha.1.symm.trans hb.1)
  exact ⟨rfl,Option.some.inj (ha.2.2.symm.trans hb.2.2)⟩

private theorem not_acrescenta {d : Db} {a : Aluno} {f : Fila} {n : Nat} :
    ¬Acrescenta d d m a f n := by
  intro h
  obtain ⟨v,hv,-⟩ := h.vaga
  have hl := congrArg List.length hv
  simp at hl

private theorem coerente_of_recusa {d : Db} {r : Except Erro Resposta}
    (h : ∀ a c,r≠.ok (.inscrito a c)) : Coerente d m r d where
  inscrito := ⟨fun ⟨a,c,he⟩ => absurd he (h a c),fun ⟨_,_,_,ha⟩ => absurd ha not_acrescenta⟩
  codigo := fun a c he => absurd he (h a c)
  outra := fun _ => rfl

private theorem comFila_of_proximaVaga {d : Db} {a : Aluno} {g : Grupo} {x : Vaga × Fila}
    (hag : Escolhe d m a g) (hv : d.proximaVaga a=some x) : ComFila d u m := by
  intro _ b h hb hn
  obtain ⟨rfl,-⟩ := hag.aluno_unique hb
  rw [hv] at hn
  cases hn

/-- The answer of `TelaController#inscrever` is right about the vagas exactly when the fila the
chosen grupo refers to exists: the 200 does not look at what `Vaga.create` returned. -/
theorem inscrever_coerente (s : World) (u : Sessao) (m : Option String) :
    Coerente s.db m ((inscrever u m).exec s).result ((inscrever u m).exec s).state.db ↔
      ComFila s.db u m := by
  have hd := desfecho u m s
  generalize ((inscrever u m).exec s).result=r at hd ⊢
  generalize ((inscrever u m).exec s).state.db=d at hd ⊢
  cases hd with
  | semRodada h =>
    refine iff_of_true (coerente_of_recusa (by simp)) ?_
    rintro ⟨r,hr,-⟩
    simp [h] at hr
  | recusa r h hn =>
    refine iff_of_true (coerente_of_recusa ?_) (fun hu a g hag => absurd hag (hn hu a g))
    intro a c he
    exact h.ne_inscrito a c (Except.ok.inj he)
  | naVez a g v f hu hag hv hp =>
    exact iff_of_true (coerente_of_recusa (by simp)) (comFila_of_proximaVaga hag hv)
  | naFila a g v f p q hu hag hv hp hne hq =>
    exact iff_of_true (coerente_of_recusa (by simp)) (comFila_of_proximaVaga hag hv)
  | semTempo a g v f e hu hag hv hne ht =>
    exact iff_of_true (coerente_of_recusa (by simp)) (comFila_of_proximaVaga hag hv)
  | semFila a g hu hag hv hf =>
    refine iff_of_false ?_ ?_
    · intro h
      obtain ⟨b,f,n,hb⟩ := h.inscrito.mp ⟨a,_,rfl⟩
      exact not_acrescenta hb
    · intro h
      have hs := h hu a g hag hv
      rw [hf] at hs
      cases hs
  | inscrito a g f t hu hag hv hf =>
    have hac : Acrescenta s.db
        (s.db.insereVaga a.id (some f.id) (s.db.maiorPosicao (some f.id)) t) m a f
        (s.db.maiorPosicao (some f.id)) :=
      ⟨hag.1,⟨g,hag.2.2,hf⟩,s.db.maior_maiorPosicao _,_,rfl,rfl,rfl,rfl⟩
    refine iff_of_true ⟨iff_of_true ⟨a,_,rfl⟩ ⟨a,f,_,hac⟩,?_,?_⟩ ?_
    · intro b c he
      obtain ⟨rfl,rfl⟩ := Resposta.inscrito.inj (Except.ok.inj he)
      exact ⟨f,_,hac,rfl⟩
    · intro h
      exact absurd rfl (h a _)
    · intro _ b h hb _
      obtain ⟨rfl,rfl⟩ := hag.aluno_unique hb
      rw [hf]
      rfl

/-- The grupo's fila has been deleted: the answer is 200 with the code `_`, and there is no vaga. -/
theorem inscrever_semFila :
    ((inscrever ⟨none,none⟩ (some "a")).exec (Cenario.world .empty .empty)).result=
      .ok (.inscrito (Cenario.aluno 1 "a") "_") ∧
    ¬Coerente (Cenario.world .empty .empty).db (some "a")
      ((inscrever ⟨none,none⟩ (some "a")).exec (Cenario.world .empty .empty)).result
      ((inscrever ⟨none,none⟩ (some "a")).exec (Cenario.world .empty .empty)).state.db := by
  have hr : ((inscrever ⟨none,none⟩ (some "a")).exec (Cenario.world .empty .empty)).result=
      .ok (.inscrito (Cenario.aluno 1 "a") "_") := by rfl
  have hv : ((inscrever ⟨none,none⟩ (some "a")).exec
      (Cenario.world .empty .empty)).state.db.vagas.rows=[] := by rfl
  refine ⟨hr,fun h => ?_⟩
  obtain ⟨a,f,n,hac⟩ := h.inscrito.mp ⟨_,_,hr⟩
  obtain ⟨v,hrows,-⟩ := hac.vaga
  rw [hv] at hrows
  have hl := congrArg List.length hrows
  simp at hl

/-! Whether there is an answer at all. -/

/-- The answers the action renders, and the redirect to the sign-in page. -/
def respondida : Resposta → Bool
  | .json n _ => n==403 || n==405
  | .inscrito _ _ => true
  | .entrar => true
  | _ => false

/-- The aluno has a vaga past the pointer of some fila. -/
def Aguarda (d : Db) (a : Aluno) : Prop :=
  ∃ f ∈ d.filas.rows,∃ v ∈ d.vagas.rows,v.alunoId=some a.id ∧ v.filaId=some f.id ∧
    ∃ p ∈ v.posicao,f.posicao<p

/-- There is an answer, and somebody already waiting is told so. -/
def Responde (d : Db) (m : Option String) (r : Except Erro Resposta) : Prop :=
  (∃ x,r=.ok x ∧ respondida x=true) ∧
    ∀ a,d.alunos.rows.find? (fun a => a.matricula==m)=some a → Aguarda d a →
      ∃ c q,r=.ok (.json 405 (mensagemNaFila c q))

/-- `tempo`: a request that finds a vaga past the pointer finds an attendance time with it.
`espera`: somebody who waits may enrol, and `Aluno#proxima_vaga` finds a vaga of theirs past the
pointer. -/
structure Atendivel (d : Db) (u : Sessao) (m : Option String) : Prop where
  tempo : Aberta d u → ∀ a g,Escolhe d m a g → ∀ v f,d.proximaVaga a=some (v,f) →
    v.posicao≠some f.posicao → f.comTempo
  espera : ∀ a,d.alunos.rows.find? (fun a => a.matricula==m)=some a → Aguarda d a →
    Aberta d u ∧ ∃ g v f,Escolhe d m a g ∧ d.proximaVaga a=some (v,f) ∧ v.posicao≠some f.posicao

private theorem mensagemNaFila_eq (c : String) (q : ℚ) :
    ∃ resto,mensagemNaFila c q="Você já estava na fila! (posição: "++resto := by
  unfold mensagemNaFila
  generalize duracao q=partes
  obtain ⟨horas,minutos,segundos⟩ := partes
  simp only [String.append_assoc]
  exact ⟨_,rfl⟩

/-- The estimate is told apart from the other answers by its first letter. -/
private theorem ne_mensagemNaFila {texto : String} (h : texto.toList.head?≠some 'V') (c : String)
    (q : ℚ) : texto≠mensagemNaFila c q := by
  rintro rfl
  obtain ⟨resto,he⟩ := mensagemNaFila_eq c q
  rw [he,String.toList_append] at h
  exact h rfl

theorem Recusa.respondida {r : Resposta} (h : Recusa r) : TelaController.respondida r=true := by
  cases h <;> rfl

theorem Recusa.ne_mensagemNaFila {r : Resposta} (h : Recusa r) (c : String) (q : ℚ) :
    r≠.json 405 (mensagemNaFila c q) := by
  intro he
  cases h with
  | entrar => cases he
  | semPermissao => simp at he
  | semMatricula => exact TelaController.ne_mensagemNaFila (by decide +kernel) c q (Resposta.json.inj he).2
  | inativo => exact TelaController.ne_mensagemNaFila (by decide +kernel) c q (Resposta.json.inj he).2
  | semGrupo => exact TelaController.ne_mensagemNaFila (by decide +kernel) c q (Resposta.json.inj he).2
  | semHorario => exact TelaController.ne_mensagemNaFila (by decide +kernel) c q (Resposta.json.inj he).2

private theorem atendivel_iff_of_recusa {d : Db} (hr : ∀ a g,Aberta d u → ¬Escolhe d m a g) :
    Atendivel d u m ↔ ∀ a,d.alunos.rows.find? (fun a => a.matricula==m)=some a → ¬Aguarda d a := by
  constructor
  · intro h a ha hw
    obtain ⟨hu,g,v,f,hag,-⟩ := h.espera a ha hw
    exact hr a g hu hag
  · intro h
    exact ⟨fun hu a g hag => absurd hag (hr a g hu),fun a ha hw => absurd hw (h a ha)⟩

/-- An answer that does not say so is right exactly when the aluno does not wait. -/
private theorem responde_iff_of_ne {d : Db} {x : Resposta} (hx : respondida x=true)
    (hne : ∀ c q,x≠.json 405 (mensagemNaFila c q)) : Responde d m (.ok x) ↔
      ∀ a,d.alunos.rows.find? (fun a => a.matricula==m)=some a → ¬Aguarda d a := by
  constructor
  · intro h a ha hw
    obtain ⟨c,q,he⟩ := h.2 a ha hw
    exact hne c q (Except.ok.inj he)
  · intro h
    exact ⟨⟨x,rfl,hx⟩,fun a ha hw => absurd hw (h a ha)⟩

/-- Somebody let through whose next vaga is at the pointer, or who has none, must not wait. -/
private theorem atendivel_iff_of_parado {d : Db} {a : Aluno} {g : Grupo} (hag : Escolhe d m a g)
    (hn : ∀ v f,d.proximaVaga a=some (v,f) → v.posicao=some f.posicao) :
    Atendivel d u m ↔ ∀ b,d.alunos.rows.find? (fun a => a.matricula==m)=some b → ¬Aguarda d b := by
  constructor
  · intro h b hb hw
    obtain ⟨-,h',v,f,hbg,hv,hne⟩ := h.espera b hb hw
    obtain ⟨rfl,-⟩ := hag.aluno_unique hbg
    exact hne (hn v f hv)
  · intro h
    refine ⟨fun _ b g' hb v f hv hne => ?_,fun b hb hw => absurd hw (h b hb)⟩
    obtain ⟨rfl,-⟩ := hag.aluno_unique hb
    exact absurd (hn v f hv) hne

/-- With a rodada, `TelaController#inscrever` answers as it should exactly when the queue the aluno
waits in has an attendance time, and somebody who waits gets as far as the queue. -/
theorem inscrever_responde (s : World) (u : Sessao) (m : Option String)
    (hr : s.db.rodadas.rows≠[]) :
    Responde s.db m ((inscrever u m).exec s).result ↔ Atendivel s.db u m := by
  have hd := desfecho u m s
  generalize ((inscrever u m).exec s).result=r at hd ⊢
  generalize ((inscrever u m).exec s).state.db=d at hd
  cases hd with
  | semRodada h => exact absurd h hr
  | recusa x h hn =>
    rw [responde_iff_of_ne h.respondida h.ne_mensagemNaFila,
      atendivel_iff_of_recusa (fun a g hu => hn hu a g)]
  | naVez a g v f hu hag hv hp =>
    have hne : ∀ c q,Resposta.json 405 "Já está na sua vez!"≠.json 405 (mensagemNaFila c q) := by
      intro c q he
      exact ne_mensagemNaFila (by decide) c q (Resposta.json.inj he).2
    rw [responde_iff_of_ne rfl hne,atendivel_iff_of_parado hag]
    intro w h hw
    rw [hv] at hw
    obtain ⟨rfl,rfl⟩ := Prod.mk.inj (Option.some.inj hw)
    exact hp
  | naFila a g v f p q hu hag hv hp hne hq =>
    refine iff_of_true ⟨⟨_,rfl,rfl⟩,fun _ _ _ => ⟨_,_,rfl⟩⟩ ⟨?_,?_⟩
    · intro _ b h hb w k hw _
      obtain ⟨rfl,-⟩ := hag.aluno_unique hb
      rw [hv] at hw
      obtain ⟨rfl,rfl⟩ := Prod.mk.inj (Option.some.inj hw)
      exact ⟨q,hq⟩
    · intro b hb _
      obtain rfl : a=b := Option.some.inj (hag.1.symm.trans hb)
      exact ⟨hu,g,v,f,hag,hv,by simpa [hp] using hne⟩
  | semTempo a g v f e hu hag hv hne ht =>
    refine iff_of_false ?_ (fun h => ht (h.tempo hu a g hag v f hv hne))
    rintro ⟨⟨x,hx,-⟩,-⟩
    cases hx
  | semFila a g hu hag hv hf =>
    rw [responde_iff_of_ne rfl (by simp),atendivel_iff_of_parado hag]
    intro v f h
    rw [hv] at h
    cases h
  | inscrito a g f t hu hag hv hf =>
    rw [responde_iff_of_ne rfl (by simp),atendivel_iff_of_parado hag]
    intro v f h
    rw [hv] at h
    cases h

/-- The aluno enrols in a fila with an attendance time and asks again. -/
theorem inscrever_responde_cenario :
    let s := ((inscrever ⟨none,none⟩ (some "a")).exec (Cenario.world Cenario.medida .empty)).state
    s.db.rodadas.rows≠[] ∧ Aguarda s.db (Cenario.aluno 1 "a") ∧
    Responde s.db (some "a") ((inscrever ⟨none,none⟩ (some "a")).exec s).result ∧
    Atendivel s.db ⟨none,none⟩ (some "a") := by
  intro s
  have hr : s.db.rodadas.rows≠[] := by decide +kernel
  have hm : ∃ c q,((inscrever ⟨none,none⟩ (some "a")).exec s).result=
      .ok (.json 405 (mensagemNaFila c q)) := ⟨_,_,rfl⟩
  have h : Responde s.db (some "a") ((inscrever ⟨none,none⟩ (some "a")).exec s).result := by
    refine ⟨?_,fun _ _ _ => hm⟩
    obtain ⟨c,q,he⟩ := hm
    exact ⟨_,he,rfl⟩
  have hw : Aguarda s.db (Cenario.aluno 1 "a") := by
    unfold Aguarda
    decide +kernel
  exact ⟨hr,hw,h,(inscrever_responde s ⟨none,none⟩ (some "a") hr).mp h⟩

/-- The aluno enrols in a new fila and asks again before anybody was called. -/
theorem inscrever_semTempo :
    ((inscrever ⟨none,none⟩ (some "a")).exec
      (Cenario.world Cenario.nova .empty)).state.db.rodadas.rows≠[] ∧
    ((inscrever ⟨none,none⟩ (some "a")).exec ((inscrever ⟨none,none⟩ (some "a")).exec
      (Cenario.world Cenario.nova .empty)).state).result=.error .typeError ∧
    ¬Responde ((inscrever ⟨none,none⟩ (some "a")).exec
        (Cenario.world Cenario.nova .empty)).state.db (some "a")
      ((inscrever ⟨none,none⟩ (some "a")).exec ((inscrever ⟨none,none⟩ (some "a")).exec
        (Cenario.world Cenario.nova .empty)).state).result := by
  have hr : ((inscrever ⟨none,none⟩ (some "a")).exec ((inscrever ⟨none,none⟩ (some "a")).exec
      (Cenario.world Cenario.nova .empty)).state).result=.error .typeError := by rfl
  refine ⟨by decide +kernel,hr,?_⟩
  rintro ⟨⟨x,hx,-⟩,-⟩
  rw [hr] at hx
  cases hx

end TelaController

end Sisfila
