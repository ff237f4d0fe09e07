import Stencil.Bindings
import Stencil.Kit

/-!
# The plugin kit

The bundled kit makes the five files of a new plugin from two names: who provides it and what it is called. Its
templates are written down as segments, a text line by line; the braces in them are the braces of the files to make. The
paths are relative to the plugin's own directory.
-/

namespace Stencil
namespace PluginKit

/-- The hole for who provides the plugin. -/
def provider : Segment := .hole Bindings.providerName

/-- The hole for what the plugin is called. -/
def name : Segment := .hole Bindings.pluginName

/-- Lines, each with its line break. -/
def lines (ls : List (List Segment)) : List Segment := ls.flatMap (· ++ [.literal "\n"])

/-- The build description: sources, headers and libraries of the plugin. -/
def buildList : List Segment := lines [
  [.literal "file(GLOB HEADERS \"include/", provider, .literal "/plugins/", name, .literal "/*.hpp\")"],
  [],
  [.literal "add_library( ", provider, .literal "_", name],
  [.literal "             $\x7bHEADERS\x7d"],
  [.literal "             ", name, .literal "_plugin.cpp"],
  [.literal "             ", name, .literal "_api.cpp"],
  [.literal "           )"],
  [],
  [.literal "target_link_libraries( ", provider, .literal "_", name,
    .literal " btcm_app btcm_chain fc graphene_db )"],
  [.literal "target_include_directories( ", provider, .literal "_", name],
  [.literal "                            PUBLIC \"$\x7bCMAKE_CURRENT_SOURCE_DIR\x7d/include\" )"]]

/-- The header that declares the interface of the plugin. -/
def apiHeader : List Segment := lines [
  [],
  [.literal "#pragma once"],
  [],
  [.literal "#include <fc/api.hpp>"],
  [],
  [.literal "namespace btcm \x7b namespace app \x7b"],
  [.literal "   struct api_context;"],
  [.literal "\x7d \x7d"],
  [],
  [.literal "namespace ", provider, .literal " \x7b namespace plugin \x7b namespace ", name, .literal " \x7b"],
  [],
  [.literal "namespace detail \x7b"],
  [.literal "class ", name, .literal "_api_impl;"],
  [.literal "\x7d"],
  [],
  [.literal "class ", name, .literal "_api"],
  [.literal "\x7b"],
  [.literal "   public:"],
  [.literal "      ", name, .literal "_api( const btcm::app::api_context& ctx );"],
  [],
  [.literal "      void on_api_startup();"],
  [],
  [.literal "      // TODO:  Add API methods here"],
  [],
  [.literal "   private:"],
  [.literal "      std::shared_ptr< detail::", name, .literal "_api_impl > my;"],
  [.literal "\x7d;"],
  [],
  [.literal "\x7d \x7d \x7d"],
  [],
  [.literal "FC_API( ", provider, .literal "::plugin::", name, .literal "::", name, .literal "_api,"],
  [.literal "   // TODO:  Add method bubble list here"],
  [.literal "   )"]]

/-- The header that declares the plugin itself. -/
def pluginHeader : List Segment := lines [
  [],
  [.literal "#pragma once"],
  [],
  [.literal "#include <btcm/app/plugin.hpp>"],
  [],
  [.literal "namespace ", provider, .literal " \x7b namespace plugin \x7b namespace ", name, .literal " \x7b"],
  [],
  [.literal "class ", name, .literal "_plugin : public btcm::app::plugin"],
  [.literal "\x7b"],
  [.literal "   public:"],
  [.literal "      ", name, .literal "_plugin();"],
  [.literal "      virtual ~", name, .literal "_plugin();"],
  [],
  [.literal "      virtual std::string plugin_name()const override;"],
  [
    .literal "      virtual void plugin_initialize( const boost::program_options::variables_map& options ) override;"],
  [.literal "      virtual void plugin_startup() override;"],
  [.literal "      virtual void plugin_shutdown() override;"],
  [.literal "\x7d;"],
  [],
  [.literal "\x7d \x7d \x7d"]]

/-- The source file of the interface. -/
def apiSource : List Segment := lines [
  [],
  [.literal "#include <btcm/app/api_context.hpp>"],
  [.literal "#include <btcm/app/application.hpp>"],
  [],
  [.literal "#include <", provider, .literal "/plugins/", name, .literal "/", name, .literal "_api.hpp>"],
  [.literal "#include <", provider, .literal "/plugins/", name, .literal "/", name, .literal "_plugin.hpp>"],
  [],
  [.literal "namespace ", provider, .literal " \x7b namespace plugin \x7b namespace ", name, .literal " \x7b"],
  [],
  [.literal "namespace detail \x7b"],
  [],
  [.literal "class ", name, .literal "_api_impl"],
  [.literal "\x7b"],
  [.literal "   public:"],
  [.literal "      ", name, .literal "_api_impl( btcm::app::application& _app );"],
  [],
  [.literal "      std::shared_ptr< ", provider, .literal "::plugin::", name, .literal "::", name,
    .literal "_plugin > get_plugin();"],
  [],
  [.literal "      btcm::app::application& app;"],
  [.literal "\x7d;"],
  [],
  [name, .literal "_api_impl::", name, .literal "_api_impl( btcm::app::application& _app ) : app( _app )"],
  [.literal "\x7b\x7d"],
  [],
  [.literal "std::shared_ptr< ", provider, .literal "::plugin::", name, .literal "::", name, .literal "_plugin > ",
    name, .literal "_api_impl::get_plugin()"],
  [.literal "\x7b"],
  [.literal "   return app.get_plugin< ", name, .literal "_plugin >( \"", name, .literal "\" );"],
  [.literal "\x7d"],
  [],
  [.literal "\x7d // detail"],
  [],
  [name, .literal "_api::", name, .literal "_api( const btcm::app::api_context& ctx )"],
  [.literal "\x7b"],
  [.literal "   my = std::make_shared< detail::", name, .literal "_api_impl >(ctx.app);"],
  [.literal "\x7d"],
  [],
  [.literal "void ", name, .literal "_api::on_api_startup() \x7b \x7d"],
  [],
  [.literal "\x7d \x7d \x7d // ", provider, .literal "::plugin::", name]]

/-- The source file of the plugin. -/
def pluginSource : List Segment := lines [
  [],
  [],
  [.literal "#include <", provider, .literal "/plugins/", name, .literal "/", name, .literal "_api.hpp>"],
  [.literal "#include <", provider, .literal "/plugins/", name, .literal "/", name, .literal "_plugin.hpp>"],
  [],
  [.literal "#include <string>"],
  [],
  [.literal "namespace ", provider, .literal " \x7b namespace plugin \x7b namespace ", name, .literal " \x7b"],
  [],
  [name, .literal "_plugin::", name, .literal "_plugin() \x7b\x7d"],
  [name, .literal "_plugin::~", name, .literal "_plugin() \x7b\x7d"],
  [],
  [.literal "std::string ", name, .literal "_plugin::plugin_name()const"],
  [.literal "\x7b"],
  [.literal "   return \"", name, .literal "\";"],
  [.literal "\x7d"],
  [],
  [.literal "void ", name,
    .literal "_plugin::plugin_initialize( const boost::program_options::variables_map& options )"],
  [.literal "\x7b"],
  [.literal "\x7d"],
  [],
  [.literal "void ", name, .literal "_plugin::plugin_startup()"],
  [.literal "\x7b"],
  [.literal "   chain::database& db = database();"],
  [],
  [.literal "   app().register_api_factory< ", name, .literal "_api >( \"", name, .literal "_api\" );"],
  [.literal "\x7d"],
  [],
  [.literal "void ", name, .literal "_plugin::plugin_shutdown()"],
  [.literal "\x7b"],
  [.literal "\x7d"],
  [],
  [.literal "\x7d \x7d \x7d // ", provider, .literal "::plugin::", name],
  [],
  [.literal "BTCM_DEFINE_PLUGIN( ", name, .literal ", ", provider, .literal "::plugin::", name, .literal "::",
    name, .literal "_plugin )"]]

/-- Where the headers go. -/
def headerDirectory : List Segment := [.literal "include/", provider, .literal "/plugins/", name, .literal "/"]

/-- The files of a plugin: the path and the text of each. -/
def files : List (List Segment × List Segment) := [
  ([.literal "CMakeLists.txt"], buildList),
  (headerDirectory ++ [name, .literal "_api.hpp"], apiHeader),
  (headerDirectory ++ [name, .literal "_plugin.hpp"], pluginHeader),
  ([name, .literal "_api.cpp"], apiSource),
  ([name, .literal "_plugin.cpp"], pluginSource)]

end PluginKit

/-- The bundled kit for plugins. -/
def Kit.plugin : Kit := ⟨PluginKit.files.map fun f => ⟨.ofSegments f.1, .ofSegments f.2⟩⟩

end Stencil
